import Dmg.Proofs.Table
/-!
# What a session does to the bus

A step of the console touches the bus in three places: the instruction it
executes, the interrupt handlers the controller runs, and the PPU writing LY
and STAT. Each goes through the bus's own operations, the handlers by
assumption (`Hooks.ThroughBus`): a handler is handed the bus by reference and
can use nothing but its public operations. So the bus after a step, a run of
steps, a reset or a load is one the bus operations reach from the bus before
(`Console.step_reach`, `Console.runFor_reach`).

A console the session reaches from power-on (`Console.Reachable`) therefore
has a bus reached from a power-on bus, and every stable property of buses
holds of it (`Console.Reachable.stable`).

Key definitions: `Hooks.ThroughBus`, `Console.Reachable`.
Key theorems: `Controller.service_reach`, `Ppu.step_reach`,
`Console.execute_throughBus`, `Console.step_reach`, `Console.runFor_reach`,
`Console.Reachable.busReach`, `Console.Reachable.stable`.
-/

namespace Dmg

variable {σ : Type}

/-- Interrupt handlers that change the bus only through its operations. -/
def Hooks.ThroughBus (hooks : Hooks σ) : Prop :=
  ∀ s st bus, Bus.Reach bus (hooks.run s st bus).2

theorem Hooks.none_throughBus : Hooks.none.ThroughBus := fun _ _ bus => Bus.Reach.refl bus

/-- Writing a list of bytes reaches the bus it ends with. -/
theorem Bus.reach_foldl_writeByte :
    ∀ (ws : List (UInt16 × UInt8)) (bus : Bus), Bus.Reach bus (ws.foldl (fun b w => b.writeByte w.1 w.2) bus)
  | [], bus => Bus.Reach.refl bus
  | w :: ws, bus => (Bus.Reach.writeByte bus w.1 w.2).trans (reach_foldl_writeByte ws _)

theorem Hooks.recorder_throughBus (script : Source → List (UInt16 × UInt8)) :
    (Hooks.recorder script).ThroughBus := fun s _ bus => Bus.reach_foldl_writeByte (script s) bus

/-! ### The interrupt controller and the PPU -/

section Hooks

variable {hooks : Hooks σ}

theorem Controller.serviceOne_reach (hh : hooks.ThroughBus) (s : Source) (st : σ) (bus : Bus) :
    Bus.Reach bus (serviceOne hooks s st bus).2 :=
  (Bus.Reach.writeByte _ _ _).trans (hh _ _ _)

/-- A pass of the controller clears IF bits and runs handlers, nothing else. -/
theorem Controller.service_reach (hh : hooks.ThroughBus) (ctl : Controller σ) (bus : Bus) :
    Bus.Reach bus (ctl.service hooks bus).2.1 := by
  unfold service
  split
  · -- each source in turn, the handlers' state and the bus carried along
    have key : ∀ (ss : List Source) (acc : σ × Bus), Bus.Reach acc.2
        (ss.foldl (fun (acc : σ × Bus) s =>
          if activeSet bus &&& s.mask = 0 then acc else serviceOne hooks s acc.1 acc.2) acc).2 := by
      intro ss
      induction ss with
      | nil => exact fun acc => Bus.Reach.refl _
      | cons s ss ih =>
        intro acc
        refine Bus.Reach.trans ?_ (ih _)
        dsimp only
        split
        · exact Bus.Reach.refl _
        · exact serviceOne_reach hh s _ _
    exact key Source.all (ctl.state, bus)
  · exact Bus.Reach.refl _

end Hooks

theorem Ppu.setScanline_reach (p : Ppu) (bus : Bus) (line : UInt8) :
    Bus.Reach bus (p.setScanline bus line).2 := Bus.Reach.writeByte bus ioLy line

theorem Ppu.enter_reach (p : Ppu) (bus : Bus) (m : Ppu.Mode) : Bus.Reach bus (p.enter bus m).2 :=
  Bus.Reach.writeByte bus ioStat _

theorem Ppu.tick_reach (p : Ppu) (bus : Bus) (steps : UInt16) (m : Ppu.Mode) :
    Bus.Reach bus (p.tick bus steps m).2 := by
  unfold tick
  split
  · exact enter_reach _ _ _
  · exact Bus.Reach.refl _

/-- A PPU step writes LY and STAT through the bus, nothing else. -/
theorem Ppu.step_reach (p : Ppu) (bus : Bus) : Bus.Reach bus (p.step bus).2 := by
  unfold step
  split
  · dsimp only [setScanline]
    split
    · exact (Bus.Reach.writeByte _ _ _).trans (enter_reach _ _ _)
    · exact Bus.Reach.writeByte bus ioLy _
  · split
    · dsimp only [setScanline]
      exact (Bus.Reach.writeByte _ _ _).trans (enter_reach _ _ _)
    · exact setScanline_reach _ _ _
  · exact tick_reach _ _ _ _
  · exact tick_reach _ _ _ _

/-! ### Steps and runs -/

namespace Exec.ThroughBus

protected theorem throw {α : Type} (f : Fault) : ThroughBus (throw f : Exec σ α) :=
  of_bus_eq fun _ => rfl

protected theorem modify {f : Console σ → Console σ} (h : ∀ c, Bus.Reach c.bus (f c).bus) :
    ThroughBus (modify f : Exec σ PUnit) := fun c => h c

end Exec.ThroughBus

open Exec.ThroughBus

namespace Console

/-- Fetching, decoding and executing an instruction changes the bus only
through the instruction's own writes. -/
theorem execute_throughBus : Exec.ThroughBus (execute : Exec σ Nat) := by
  rw [execute_eq]
  refine Exec.ThroughBus.regs.bind fun _ => (read _).bind fun _ => ?_
  split
  · exact Exec.ThroughBus.throw _
  · rename_i i _
    refine (setPc _).bind fun _ => (Instr.run_throughBus i).bind fun _ => ?_
    -- stepping PC past the operands, or not, shares the rest of the block
    dsimp only
    split
    · exact (modifyRegs _).bind fun _ => (of_bus_eq fun _ => rfl).bind fun _ =>
        (of_bus_eq fun _ => rfl).bind fun _ => .pure _
    · exact (of_bus_eq fun _ => rfl).bind fun _ => (of_bus_eq fun _ => rfl).bind fun _ => .pure _

variable {hooks : Hooks σ}

theorem cpuAdvance_throughBus (hh : hooks.ThroughBus) (asleep : Bool) :
    Exec.ThroughBus (cpuAdvance hooks asleep) := by
  unfold cpuAdvance
  refine Exec.ThroughBus.bind ?_ fun _ => ?_
  · exact .ite (.pure _) execute_throughBus
  exact (Exec.ThroughBus.modify fun c => Controller.service_reach hh c.interrupts c.bus).bind fun _ => .pure _

theorem advance_throughBus (hh : hooks.ThroughBus) (asleep : Bool) :
    Exec.ThroughBus (advance hooks asleep) := by
  unfold advance
  exact (cpuAdvance_throughBus hh asleep).bind fun _ =>
    (Exec.ThroughBus.modify fun c => Ppu.step_reach c.ppu c.bus).bind fun _ =>
      (of_bus_eq fun _ => rfl).bind fun _ => .pure _

/-- A step, whether it succeeds or fails, changes the bus only through bus
operations. -/
theorem step_reach (hh : hooks.ThroughBus) (c : Console σ) :
    Bus.Reach c.bus (step hooks c).console.bus := by
  unfold step
  rw [stepWith_console]
  exact advance_throughBus hh _ { c with cpu := (c.cpu.wake c.bus).1 }

theorem runFrom_reach (hh : hooks.ThroughBus) :
    ∀ (n : Nat) (c : Console σ) (trace : Array String) (acc : Nat),
      Bus.Reach c.bus (runFrom hooks n c trace acc).console.bus
  | 0, c, _, _ => Bus.Reach.refl c.bus
  | n + 1, c, trace, acc => by
    dsimp only [runFrom]
    split
    · exact (step_reach hh c).trans (runFrom_reach hh n _ _ _)
    · exact step_reach hh c

theorem runFor_reach (hh : hooks.ThroughBus) (n : Nat) (c : Console σ) :
    Bus.Reach c.bus (runFor hooks n c).console.bus := runFrom_reach hh n c #[] 0

theorem reset_reach (c : Console σ) : Bus.Reach c.bus c.reset.bus := Bus.Reach.reset c.bus

theorem loadCartridge_reach {c c' : Console σ} {rom : Array UInt8} {kind : UInt8}
    (h : c.loadCartridge rom kind = .ok c') : Bus.Reach c.bus c'.bus := by
  unfold loadCartridge at h
  cases hb : c.bus.loadCartridge rom kind with
  | error e => simp [hb, bind, Except.bind] at h
  | ok b =>
    simp only [hb, bind, Except.bind, pure, Except.pure, Except.ok.injEq] at h
    subst h
    exact (Bus.Reach.loadCartridge hb).trans (Bus.Reach.reset b)

theorem loadRom_reach {c c' : Console σ} {rom : Array UInt8} (h : c.loadRom rom = .ok c') :
    Bus.Reach c.bus c'.bus := by
  unfold loadRom at h
  split at h
  · exact loadCartridge_reach h
  · cases h

end Console

/-! ### Consoles a session reaches -/

/-- The consoles a session with interrupt handlers `hooks` reaches from
power-on: by steps, runs of steps, resets and loads that succeed (a load that
fails changes nothing). -/
inductive Console.Reachable (hooks : Hooks σ) : Console σ → Prop
  | new (cfg : Config) (st : σ) : Reachable hooks (Console.new cfg st)
  | step {c : Console σ} : Reachable hooks c → Reachable hooks (Console.step hooks c).console
  | runFor {c : Console σ} (n : Nat) :
      Reachable hooks c → Reachable hooks (Console.runFor hooks n c).console
  | reset {c : Console σ} : Reachable hooks c → Reachable hooks c.reset
  | loadRom {c c' : Console σ} (rom : Array UInt8) :
      Reachable hooks c → c.loadRom rom = .ok c' → Reachable hooks c'
  | loadCartridge {c c' : Console σ} (rom : Array UInt8) (kind : UInt8) :
      Reachable hooks c → c.loadCartridge rom kind = .ok c' → Reachable hooks c'

namespace Console.Reachable

variable {hooks : Hooks σ}

/-- The bus of a reached console is reached from a power-on bus. -/
theorem busReach (hh : hooks.ThroughBus) {c : Console σ} (h : Reachable hooks c) :
    ∃ m, Bus.Reach (Bus.new m) c.bus := by
  induction h with
  | new cfg st => exact ⟨cfg.model, Bus.Reach.refl _⟩
  | step _ ih =>
    obtain ⟨m, hm⟩ := ih
    exact ⟨m, hm.trans (step_reach hh _)⟩
  | runFor n _ ih =>
    obtain ⟨m, hm⟩ := ih
    exact ⟨m, hm.trans (runFor_reach hh n _)⟩
  | reset _ ih =>
    obtain ⟨m, hm⟩ := ih
    exact ⟨m, hm.trans (reset_reach _)⟩
  | loadRom rom _ hl ih =>
    obtain ⟨m, hm⟩ := ih
    exact ⟨m, hm.trans (loadRom_reach hl)⟩
  | loadCartridge rom kind _ hl ih =>
    obtain ⟨m, hm⟩ := ih
    exact ⟨m, hm.trans (loadCartridge_reach hl)⟩

/-- A stable property of buses that holds at power-on holds of the bus of
every console a session reaches. -/
theorem stable (hh : hooks.ThroughBus) {P : Bus → Prop} (hP : Bus.Stable P)
    (hnew : ∀ m, P (Bus.new m)) {c : Console σ} (h : Reachable hooks c) : P c.bus := by
  obtain ⟨m, hm⟩ := h.busReach hh
  exact hP.reach hm (hnew m)

end Console.Reachable

/-! ### The memory map over whole runs -/

/-- Work RAM below 0xDE00 and its echo hold the same bytes on every bus the bus
operations make of a power-on bus, and on every console a session reaches with
handlers that use the bus through its operations. -/
theorem echo_mirrored_always :
    (∀ (m : Model) (ops : List Bus.Op), ((Bus.new m).runOps ops).EchoMirrored) ∧
    ∀ {σ : Type} (hooks : Hooks σ), hooks.ThroughBus →
      ∀ c, Console.Reachable hooks c → c.bus.EchoMirrored :=
  ⟨fun m ops => Bus.echoMirrored_stable.runOps ops _ (Bus.echoMirrored_new m),
    fun _ hh _ h => h.stable hh Bus.echoMirrored_stable Bus.echoMirrored_new⟩

/-- A handler writing on every interrupt, one step after power-on. -/
theorem echo_mirrored_after_step :
    (Hooks.recorder fun _ => [(0xC010, 0x5A), (0xE020, 0xA5)]).ThroughBus ∧
    Console.Reachable (Hooks.recorder fun _ => [(0xC010, 0x5A), (0xE020, 0xA5)])
      (Console.step (Hooks.recorder fun _ => [(0xC010, 0x5A), (0xE020, 0xA5)])
        (Console.new Config.standard #[])).console ∧
    (Console.step (Hooks.recorder fun _ => [(0xC010, 0x5A), (0xE020, 0xA5)])
        (Console.new Config.standard #[])).console.bus.EchoMirrored :=
  ⟨Hooks.recorder_throughBus _, .step (.new _ _),
    echo_mirrored_always.2 _ (Hooks.recorder_throughBus _) _ (.step (.new _ _))⟩

/-- The ROM window holds the loaded cartridge's image, zeros past its end, or
zeros when no cartridge is loaded: on every bus the bus operations make of a
power-on bus, where the loaded cartridge is the one the last successful load
loaded, and on every console a session reaches. No byte or word write changes
the window. -/
theorem rom_window_shows_cartridge :
    (∀ (m : Model) (ops : List Bus.Op), ((Bus.new m).runOps ops).romWindow =
      ((Bus.lastLoaded ops).map Cartridge.image).getD (List.replicate 0x8000 0)) ∧
    (∀ {σ : Type} (hooks : Hooks σ), hooks.ThroughBus → ∀ c, Console.Reachable hooks c →
      c.bus.romWindow = (c.bus.cartridge.map Cartridge.image).getD (List.replicate 0x8000 0)) ∧
    (∀ (b : Bus) (a : UInt16) (v : UInt8), (b.writeByte a v).romWindow = b.romWindow) ∧
    (∀ (b b' : Bus) (a v : UInt16) (e : Endian), b.writeWord a v e = .ok b' →
      b'.romWindow = b.romWindow) := by
  refine ⟨fun m ops => ?_, fun _ hh _ h => ?_, Bus.romWindow_writeByte,
    fun _ _ _ _ _ hw => Bus.romWindow_writeWord hw⟩
  · have hc := Bus.cartridge_runOps (Bus.new m) ops
    have hm := Bus.romMapped_stable.runOps ops _ (Bus.romMapped_new m)
    rw [Bus.romWindow_eq hm, hc]
    cases Bus.lastLoaded ops <;> rfl
  · exact Bus.romWindow_eq (h.stable hh Bus.romMapped_stable Bus.romMapped_new)

/-- One step after power-on, and a byte write and a word write that end in the
ROM window. -/
theorem rom_window_after_step :
    Hooks.none.ThroughBus ∧
    Console.Reachable Hooks.none (Console.step Hooks.none (Console.new Config.standard ())).console ∧
    (Console.step Hooks.none (Console.new Config.standard ())).console.bus.romWindow =
      ((Console.step Hooks.none (Console.new Config.standard ())).console.bus.cartridge.map
        Cartridge.image).getD (List.replicate 0x8000 0) ∧
    ((Bus.new .dmg).writeByte 0x7FFF 0x77).romWindow = (Bus.new .dmg).romWindow ∧
    (Bus.new .dmg).writeWord 0x7FFF 0xABCD .little =
      .ok ((Bus.new .dmg).storeWord 0x7FFF 0xABCD .little) ∧
    ((Bus.new .dmg).storeWord 0x7FFF 0xABCD .little).romWindow = (Bus.new .dmg).romWindow :=
  have hw : (Bus.new .dmg).writeWord 0x7FFF 0xABCD .little =
      .ok ((Bus.new .dmg).storeWord 0x7FFF 0xABCD .little) := Bus.writeWord_eq_ok.2 ⟨by decide, rfl⟩
  ⟨Hooks.none_throughBus, .step (.new _ _),
    rom_window_shows_cartridge.2.1 _ Hooks.none_throughBus _ (.step (.new _ _)),
    rom_window_shows_cartridge.2.2.1 _ _ _, hw,
    rom_window_shows_cartridge.2.2.2 _ _ _ _ _ hw⟩

end Dmg
