import Dmg.Proofs.MasterEnable
import Dmg.Proofs.PpuFrame
import Dmg.Proofs.Session
import Dmg.Proofs.Dispatch
/-!
# Reset forgets the past

A reset puts every part of the console back to its power-on state and keeps
only what describes the machine rather than its history: the configuration,
whether tracing is on, the PPU's timing, the bus's model and cartridge, and
the interrupt handlers' own state. Power-on memory is zero except for the
cartridge's image in the ROM window, the I/O registers the boot sequence leaves
set, and NR52, which reads 0xF0 on the SGB and 0xF1 otherwise
(`Bus.readByte_reset`).

Nothing a session does changes the configuration, tracing or the PPU's timing
(`Console.settings_step`), and a console a session reaches has the tracing and
timing its configuration gives (`Console.Reachable.settings_eq`). A step only
writes bytes, so with handlers that do the same it keeps the bus's model and
cartridge (`Console.kind_step`). So two reached consoles of one configuration
with the same model and cartridge reset to the same console, handlers' state
apart, whatever they went through; and reset is idempotent, for the console
and for the bus alone.

Key definitions: `Console.settings`, `Bus.kind`, `Console.IsPowerOn`.
Key theorems: `Bus.reset_eq_of_agree`, `Bus.readByte_reset`,
`Console.execute_keeps_of`, `Console.settings_step`, `Console.kind_step`,
`Console.Reachable.settings_eq`, `Console.reset_eq_of_agree`,
`Console.reset_reset`, `Console.isPowerOn_reset`, `Console.reset_forgets_history`.
-/

namespace Dmg

/-! ### Power-on memory -/

/-- Finding an entry by its address as a number is looking the address up. -/
theorem find?_toNat_eq_lookup (l : List (UInt16 × UInt8)) (a : UInt16) :
    (l.find? fun p => p.1.toNat = a.toNat).map Prod.snd = l.lookup a := by
  induction l with
  | nil => rfl
  | cons p l ih =>
    obtain ⟨k, v⟩ := p
    by_cases h : k = a
    · subst h
      rw [List.find?_cons_of_pos (by simp), List.lookup_cons, beq_self_eq_true]
      rfl
    · have hn : ¬ k.toNat = a.toNat := fun h' => h (UInt16.toNat_inj.1 h')
      have hb : (a == k) = false := beq_eq_false_iff_ne.2 (Ne.symm h)
      rw [List.find?_cons_of_neg (by simpa using hn), ih, List.lookup_cons, hb]

/-- The power-on I/O table lists only I/O registers. -/
theorem ioPowerOn_high : ∀ p ∈ ioPowerOn, 0xFF00 ≤ p.1.toNat := by
  simp [ioPowerOn]

/-- The power-on byte at every address: the cartridge's window byte below
0x8000, NR52's value for the model, the value of the I/O table, and zero
everywhere else. -/
theorem powerOnByte_eq (m : Model) (cart : Option Cartridge) (a : UInt16) :
    powerOnByte m cart a.toNat =
      if a < 0x8000 then Bus.romByte cart a.toNat
      else if a = ioNr52 then (if m = .sgb then 0xF0 else 0xF1)
      else (ioPowerOn.lookup a).getD 0 := by
  have hlt : a < 0x8000 ↔ a.toNat < 0x8000 := UInt16.lt_iff_toNat_lt
  have hnr : a = ioNr52 ↔ a.toNat = ioNr52.toNat := UInt16.toNat_inj.symm
  have hnr52 : nr52PowerOn m = if m = .sgb then 0xF0 else 0xF1 := by cases m <;> rfl
  unfold powerOnByte
  by_cases h1 : a.toNat < 0x8000
  · cases cart <;> simp [h1, hlt, Bus.romByte]
  · by_cases h2 : a.toNat < 0xFF00
    · -- no I/O register lives below 0xFF00, NR52 included
      have hne : ¬ a.toNat = ioNr52.toNat := by simp [ioNr52]; omega
      have hnone : (ioPowerOn.find? fun p => p.1.toNat = a.toNat) = none :=
        List.find?_eq_none.2 fun p hp => by have := ioPowerOn_high p hp; simp; omega
      rw [← find?_toNat_eq_lookup, hnone]
      simp [h1, h2, hlt, hnr, hne]
    · rw [← find?_toNat_eq_lookup]
      simp [h1, h2, hlt, hnr, hnr52]

namespace Bus

/-- Reset reads only the model and the cartridge. -/
theorem reset_eq_of_agree {b₁ b₂ : Bus} (hm : b₁.model = b₂.model) (hc : b₁.cartridge = b₂.cartridge) :
    b₁.reset = b₂.reset := by
  obtain ⟨mem₁, cart₁, model₁⟩ := b₁
  obtain ⟨mem₂, cart₂, model₂⟩ := b₂
  simp only at hm hc
  subst hm hc
  rfl

theorem reset_reset (b : Bus) : b.reset.reset = b.reset :=
  reset_eq_of_agree (model_reset b) (cartridge_reset b)

/-- What a bus is rather than what it holds: its model and its cartridge. -/
def kind (b : Bus) : Model × Option Cartridge := (b.model, b.cartridge)

@[simp] theorem kind_writeByte (b : Bus) (a : UInt16) (v : UInt8) : (b.writeByte a v).kind = b.kind := by
  simp [kind]

/-- After a reset the bus holds the power-on bytes of its model and cartridge. -/
theorem readByte_reset (b : Bus) (a : UInt16) :
    b.reset.readByte a =
      if a < 0x8000 then romByte b.cartridge a.toNat
      else if a = ioNr52 then (if b.model = .sgb then 0xF0 else 0xF1)
      else (ioPowerOn.lookup a).getD 0 := by
  have ha := a.toNat_lt
  change b.reset.memory[a.toNat] = _
  simp only [reset, Vector.getElem_ofFn]
  exact powerOnByte_eq b.model b.cartridge a

end Bus

/-- The power-on registers as pairs. -/
theorem Registers.powerOn_pairs :
    Registers.powerOn.af = 0x01B0 ∧ Registers.powerOn.bc = 0x0013 ∧ Registers.powerOn.de = 0x00D8 ∧
      Registers.powerOn.hl = 0x014D ∧ Registers.powerOn.sp = 0xFFFE ∧ Registers.powerOn.pc = 0x0100 := by
  decide

/-! ### What a session never changes -/

theorem Cpu.trace_wake (cpu : Cpu) (bus : Bus) : (cpu.wake bus).1.trace = cpu.trace := by
  unfold Cpu.wake
  dsimp only
  split_ifs <;> rfl

theorem Cpu.trace_complete (cpu : Cpu) (ime : Bool) (e : Effect) :
    (cpu.complete ime e).1.trace = cpu.trace := by
  cases e <;> rfl

theorem Ppu.timing_step (p : Ppu) (bus : Bus) : (p.step bus).1.timing = p.timing := by
  rw [Ppu.step_fst]
  unfold Ppu.advance
  split <;> split_ifs <;> rfl

namespace Console

variable {σ : Type}

/-- What describes the machine rather than its history: the configuration,
whether tracing is on, and the PPU's timing. -/
def settings (c : Console σ) : Config × Bool × Ppu.Timing := (c.config, c.cpu.trace, c.ppu.timing)

/-- A view of the console that ignores the registers and byte writes, and
that the engine's bookkeeping after an instruction keeps, is kept by executing
one, whether it finishes or fails. -/
theorem execute_keeps_of {γ : Type} {v : Console σ → γ}
    (hb : ∀ (c : Console σ) (a : UInt16) (x : UInt8), v { c with bus := c.bus.writeByte a x } = v c)
    (hr : ∀ (c : Console σ) (r : Registers), v { c with regs := r } = v c)
    (hcount : ∀ c : Console σ, v { c with cpu := { c.cpu with executed := c.cpu.executed + 1 } } = v c)
    (hfinish : ∀ e, Exec.Keeps v (finish e : Exec σ Nat)) : Exec.Keeps v (execute : Exec σ Nat) := by
  rw [execute_eq]
  refine Exec.Keeps.regs.bind fun _ => (Exec.Keeps.read _).bind fun _ => ?_
  split
  · exact Exec.Keeps.of_final fun _ => rfl
  · rename_i i _
    have hpc : ∀ w, Exec.Keeps v (Exec.setPc w : Exec σ Unit) := fun _ c => hr c _
    have hregs : ∀ g, Exec.Keeps v (Exec.modifyRegs g : Exec σ Unit) := fun _ c => hr c _
    refine (hpc _).bind fun _ => (Instr.run_keeps_of_regs_bus hb hr i).bind fun e => ?_
    -- stepping PC past the operands, or not, shares the rest of the block
    dsimp only
    split
    · exact (hregs _).bind fun _ => (Exec.Keeps.modify hcount).bind fun _ => (hfinish e).bind fun _ => .pure _
    · exact (Exec.Keeps.modify hcount).bind fun _ => (hfinish e).bind fun _ => .pure _

theorem execute_keeps_settings : Exec.Keeps settings (execute : Exec σ Nat) :=
  execute_keeps_of (fun _ _ _ => rfl) (fun _ _ => rfl) (fun _ => rfl)
    fun _ _ => by simp [Exec.final, settings, Cpu.trace_complete]

theorem cpuAdvance_keeps_settings (hooks : Hooks σ) (asleep : Bool) :
    Exec.Keeps settings (cpuAdvance hooks asleep) := by
  unfold cpuAdvance
  refine (Exec.Keeps.ite (.pure _) execute_keeps_settings).bind fun _ =>
    (Exec.Keeps.modify ?_).bind fun _ => .pure _
  exact fun _ => rfl

theorem advance_keeps_settings (hooks : Hooks σ) (asleep : Bool) :
    Exec.Keeps settings (advance hooks asleep) := by
  unfold advance
  -- of the PPU only the timing is seen, and its step keeps that
  refine (cpuAdvance_keeps_settings hooks asleep).bind fun _ =>
    (Exec.Keeps.modify ?_).bind fun _ => (Exec.Keeps.modify ?_).bind fun _ => .pure _
  · exact fun c => by simp [settings, Ppu.timing_step]
  · exact fun _ => rfl

/-- A step keeps the configuration, tracing and the PPU's timing, whether it
succeeds or fails. -/
theorem settings_step (hooks : Hooks σ) (c : Console σ) :
    settings (step hooks c).console = settings c := by
  unfold step
  rw [stepWith_console, advance_keeps_settings]
  -- waking keeps the tracing setting
  simp [settings, Cpu.trace_wake]

theorem settings_runFrom (hooks : Hooks σ) :
    ∀ (n : Nat) (c : Console σ) (trace : Array String) (acc : Nat),
      settings (runFrom hooks n c trace acc).console = settings c
  | 0, _, _, _ => rfl
  | n + 1, c, trace, acc => by
    dsimp only [runFrom]
    split
    · rw [settings_runFrom hooks n, settings_step]
    · exact settings_step hooks c

theorem settings_reset (c : Console σ) : settings c.reset = settings c := rfl

theorem settings_loadCartridge {c c' : Console σ} {rom : Array UInt8} {kind : UInt8}
    (h : c.loadCartridge rom kind = .ok c') : settings c' = settings c := by
  unfold loadCartridge at h
  cases hb : c.bus.loadCartridge rom kind with
  | error e => simp [hb, bind, Except.bind] at h
  | ok b =>
    simp only [hb, bind, Except.bind, pure, Except.pure, Except.ok.injEq] at h
    subst h
    rfl

theorem settings_loadRom {c c' : Console σ} {rom : Array UInt8} (h : c.loadRom rom = .ok c') :
    settings c' = settings c := by
  unfold loadRom at h
  split at h
  · exact settings_loadCartridge h
  · cases h

/-- A console a session reaches traces and times as its configuration says. -/
theorem Reachable.settings_eq {hooks : Hooks σ} {c : Console σ} (h : Reachable hooks c) :
    c.cpu.trace = c.config.trace ∧ c.ppu.timing = c.config.timing := by
  -- each operation keeps the three settings together, and power-on sets them from the
  -- configuration
  suffices hs : ∃ cfg : Config, settings c = (cfg, cfg.trace, cfg.timing) by
    obtain ⟨cfg, hcfg⟩ := hs
    simp only [settings, Prod.mk.injEq] at hcfg
    obtain ⟨rfl, h1, h2⟩ := hcfg
    exact ⟨h1, h2⟩
  induction h with
  | new cfg st => exact ⟨cfg, rfl⟩
  | step _ ih => rwa [settings_step]
  | runFor n _ ih => rwa [Console.runFor, settings_runFrom]
  | reset _ ih => rwa [settings_reset]
  | loadRom rom _ hl ih => rwa [settings_loadRom hl]
  | loadCartridge rom kind _ hl ih => rwa [settings_loadCartridge hl]

/-! ### What a step keeps of the bus -/

theorem execute_keeps_kind : Exec.Keeps (fun c : Console σ => c.bus.kind) (execute : Exec σ Nat) :=
  execute_keeps_of (fun c a x => Bus.kind_writeByte c.bus a x) (fun _ _ => rfl) (fun _ => rfl) fun _ _ => rfl

/-- With handlers that keep the bus's model and cartridge, a step keeps them
too, whether it succeeds or fails: the instruction, the controller and the PPU
only write bytes. -/
theorem kind_step {hooks : Hooks σ} (hk : ∀ s st bus, (hooks.run s st bus).2.kind = bus.kind)
    (c : Console σ) : (step hooks c).console.bus.kind = c.bus.kind := by
  have hservice : ∀ (ctl : Controller σ) (bus : Bus), (ctl.service hooks bus).2.1.kind = bus.kind :=
    Controller.service_keeps hooks hk fun b x => Bus.kind_writeByte b _ x
  have hppu : ∀ (p : Ppu) (bus : Bus), (p.step bus).2.kind = bus.kind :=
    Ppu.step_keeps (fun b x => Bus.kind_writeByte b _ x) (fun b x => Bus.kind_writeByte b _ x)
  have hadvance : ∀ asleep, Exec.Keeps (fun c : Console σ => c.bus.kind) (advance hooks asleep) := by
    intro asleep
    unfold advance cpuAdvance
    refine ((Exec.Keeps.ite (.pure _) execute_keeps_kind).bind fun _ =>
      (Exec.Keeps.modify fun c => hservice c.interrupts c.bus).bind fun _ => .pure _).bind fun _ =>
        (Exec.Keeps.modify fun c => hppu c.ppu c.bus).bind fun _ =>
          (Exec.Keeps.modify fun _ => by exact rfl).bind fun _ => .pure _
  unfold step
  rw [stepWith_console]
  exact hadvance _ _

/-! ### Reset -/

/-- Reset reads only the configuration, tracing, the PPU's timing and the bus's
model and cartridge; the handlers' state is kept, so two consoles that agree on
those reset to the same console once their handlers' states are swapped. -/
theorem reset_eq_of_agree {c₁ c₂ : Console σ} (hs : settings c₁ = settings c₂)
    (hm : c₁.bus.model = c₂.bus.model) (hc : c₁.bus.cartridge = c₂.bus.cartridge) :
    { c₁.reset with interrupts := c₂.reset.interrupts } = c₂.reset := by
  simp only [settings, Prod.mk.injEq] at hs
  obtain ⟨hcfg, htrace, htiming⟩ := hs
  simp only [reset, Ppu.reset, Bus.reset_eq_of_agree hm hc, hcfg, htrace, htiming]

theorem reset_reset (c : Console σ) : c.reset.reset = c.reset := by
  simp only [reset, Bus.reset_reset, Cpu.new, Controller.reset, Controller.setIme, Ppu.reset]

/-- `c` is the power-on state of the machine `c₀` describes: power-on registers
(AF = 01B0, BC = 0013, DE = 00D8, HL = 014D, SP = FFFE, PC = 0100), memory zero
but for the cartridge's image in the ROM window, NR52 (0xF0 on the SGB, 0xF1
otherwise) and the I/O table, a processor neither halted nor stopped with no
EI pending and nothing executed, the master enable on, the PPU in horizontal
blank on line 0 with its clock at zero, and no cycles; the configuration,
tracing, the PPU's timing, the model, the cartridge and the handlers' state are
`c₀`'s. -/
structure IsPowerOn (c₀ c : Console σ) : Prop where
  regs : c.regs.af = 0x01B0 ∧ c.regs.bc = 0x0013 ∧ c.regs.de = 0x00D8 ∧ c.regs.hl = 0x014D ∧
    c.regs.sp = 0xFFFE ∧ c.regs.pc = 0x0100
  memory : ∀ a : UInt16, c.bus.readByte a =
    if a < 0x8000 then Bus.romByte c₀.bus.cartridge a.toNat
    else if a = ioNr52 then (if c₀.bus.model = .sgb then 0xF0 else 0xF1)
    else (ioPowerOn.lookup a).getD 0
  cartridge : c.bus.cartridge = c₀.bus.cartridge
  model : c.bus.model = c₀.bus.model
  cpu : c.cpu = ⟨false, false, .idle, c₀.cpu.trace, 0⟩
  interrupts : c.interrupts = ⟨true, c₀.interrupts.state⟩
  ppu : c.ppu = ⟨c₀.ppu.timing, .hblank, 0, 0⟩
  cycles : c.cycles = 0
  config : c.config = c₀.config

theorem isPowerOn_reset (c : Console σ) : IsPowerOn c c.reset :=
  ⟨Registers.powerOn_pairs, Bus.readByte_reset c.bus, Bus.cartridge_reset c.bus, Bus.model_reset c.bus,
    rfl, rfl, rfl, rfl, rfl⟩

/-- Reset forgets all history. Two consoles a session reaches from one
configuration, whatever it did with them, reset to the same console, handlers'
state apart, when their buses have the same model and cartridge. Every reset
gives the power-on state of the console's machine, and reset is idempotent;
so are the bus's own reset, which reads only the model and the cartridge. -/
theorem reset_forgets_history (hooks : Hooks σ) :
    (∀ c₁ c₂ : Console σ, Reachable hooks c₁ → Reachable hooks c₂ → c₁.config = c₂.config →
      c₁.bus.model = c₂.bus.model → c₁.bus.cartridge = c₂.bus.cartridge →
      { c₁.reset with interrupts := c₂.reset.interrupts } = c₂.reset ∧
        c₁.reset.interrupts.ime = c₂.reset.interrupts.ime) ∧
    (∀ c : Console σ, IsPowerOn c c.reset) ∧
    (∀ c : Console σ, c.reset.reset = c.reset) ∧
    (∀ b₁ b₂ : Bus, b₁.model = b₂.model → b₁.cartridge = b₂.cartridge → b₁.reset = b₂.reset) ∧
    (∀ b : Bus, b.reset.reset = b.reset) := by
  refine ⟨fun c₁ c₂ h₁ h₂ hcfg hm hc => ⟨?_, rfl⟩, isPowerOn_reset, reset_reset,
    fun _ _ => Bus.reset_eq_of_agree, Bus.reset_reset⟩
  -- reached consoles trace and time as their common configuration says
  obtain ⟨ht₁, hp₁⟩ := h₁.settings_eq
  obtain ⟨ht₂, hp₂⟩ := h₂.settings_eq
  have hs : settings c₁ = settings c₂ := by
    simp only [settings, ht₁, hp₁, ht₂, hp₂, hcfg]
  exact reset_eq_of_agree hs hm hc

/-- Handlers that count the interrupts they serve. -/
def countingHooks : Hooks Nat := ⟨fun _ n bus => (n + 1, bus)⟩

/-- A fresh console whose handlers have counted nothing, and one that has
counted to 7 and then taken a step, reset alike but for the count; and a bus
written to resets as a fresh one. -/
theorem reset_ignores_count :
    Reachable countingHooks (Console.new Config.standard 0) ∧
    Reachable countingHooks (step countingHooks (Console.new Config.standard 7)).console ∧
    { (Console.new Config.standard 0).reset with
        interrupts := (step countingHooks (Console.new Config.standard 7)).console.reset.interrupts } =
      (step countingHooks (Console.new Config.standard 7)).console.reset ∧
    (Bus.new .dmg).reset = ((Bus.new .dmg).writeByte 0xC000 0x42).reset := by
  -- the step keeps the configuration, the model and the cartridge
  have hsettings := settings_step countingHooks (Console.new Config.standard 7)
  simp only [settings, Prod.mk.injEq] at hsettings
  obtain ⟨hcfg, -, -⟩ := hsettings
  have hkind : (step countingHooks (Console.new Config.standard 7)).console.bus.kind =
      (Console.new Config.standard 7).bus.kind :=
    kind_step (fun _ _ _ => by exact rfl) _
  simp only [Bus.kind, Prod.mk.injEq] at hkind
  obtain ⟨hm, hc⟩ := hkind
  refine ⟨.new _ _, .step (.new _ _),
    ((reset_forgets_history countingHooks).1 (Console.new Config.standard 0)
      (step countingHooks (Console.new Config.standard 7)).console (.new _ _) (.step (.new _ _)) hcfg.symm
      hm.symm hc.symm).1,
    (reset_forgets_history countingHooks).2.2.2.1 _ _ (Bus.model_writeByte _ _ _).symm
      (Bus.cartridge_writeByte _ _ _).symm⟩

end Console
end Dmg
