import Dmg.Proofs.MasterEnable
import Dmg.Proofs.Dispatch
import Dmg.Proofs.PpuFrame
/-!
# The stack is last in, first out

The instructions that push a word are `PUSH rr` and the taken `CALL` and
`RST`; those that pop one are `POP rr`, the taken `RET` and `RETI`. A push
writes its word little-endian at SP - 2 and moves SP there; a pop reads the
word at SP and moves SP up by two. A pushed word survives until its pop when
nothing in between writes over it: the other instructions keep SP and the
bytes from SP up, and the rest of each step (the handlers, the controller
clearing IF, the PPU writing LY and STAT) stays out of the stack.

The argument runs over any step function with the few properties it uses
(`Console.StackStep`): it fails or succeeds as the console's step does,
after an instruction it keeps what the instruction left, and a sleeping
processor's step keeps the registers, each over the bytes the rest of its
step spares. The console's step is one, sparing the bytes no handler writes
other than IF, LY and STAT (`Hooks.Spares`); the processor's step alone,
with no PPU, is another, sparing every byte no handler writes other than IF
(`Hooks.CpuSpares`).

`Console.Nested` is a run of steps that pushes `k` words and then pops them
in reverse order, with steps that leave the stack alone anywhere in between
(`Console.Neutral`); it records, for each pop, the word its matching push
pushed. Over a stack area of `2k` bytes below the starting SP that lies
above the ROM window, holds no two echo partners and is spared by the rest of
the step (`Console.SafeStack`), every pop takes back the word of its push and
SP ends where it started (`Console.stack_lifo`). The proof is an induction
over the nesting, from a step lemma for each kind of step
(`Console.StackStep.push_step`, `Console.StackStep.pop_step`,
`Console.StackStep.neutral_step`). `Console.stack_swaps_pairs` runs
`PUSH BC`, `PUSH DE`, `NOP`, `POP BC`, `POP DE` through it.

Key definitions: `Instr.pushed`, `Instr.Receives`, `Hooks.CpuSpares`,
`Hooks.Spares`, `Console.StackStep`, `Console.Neutral`, `Console.Nested`,
`Console.SafeStack`.
Key theorems: `Instr.run_pushes`, `Instr.run_pops`,
`Console.stackStep_step`, `Console.stackStep_cpuStep`,
`Console.StackStep.push_step`, `Console.StackStep.pop_step`,
`Console.StackStep.neutral_step`, `Console.Nested.lifo`,
`Console.stack_lifo`.
-/

namespace Dmg

/-! ### Words and register pairs -/

/-- A word is its high byte and its low byte joined. -/
theorem word_hiByte_loByte (w : UInt16) : word (hiByte w) (loByte w) = w := by
  apply UInt16.toBitVec_inj.1
  simp only [word, hiByte, loByte, UInt16.toBitVec_or, UInt16.toBitVec_shiftLeft, UInt8.toBitVec_toUInt16,
    UInt16.toBitVec_toUInt8, UInt16.toBitVec_shiftRight]
  ext i hi
  by_cases h : i < 8
  · simp [h, BitVec.getLsbD_eq_getElem hi]
  · simp [h, show i - 8 < 8 by omega, show 8 + (i - 8) = i by omega, BitVec.getLsbD_eq_getElem hi]

/-- Joining with the low nibble of the low byte cleared clears it in the word. -/
theorem word_hiByte_loByte_and (w : UInt16) : word (hiByte w) (loByte w &&& 0xF0) = w &&& 0xFFF0 := by
  have hlo : loByte (w &&& 0xFFF0) = loByte w &&& 0xF0 := UInt16.toUInt8_and w 0xFFF0
  have hhi : hiByte (w &&& 0xFFF0) = hiByte w := by
    simp only [hiByte, UInt16.shiftRight_and, UInt16.toUInt8_and]
    have hff : ((0xFFF0 : UInt16) >>> 8).toUInt8 = 0xFF := by decide
    rw [hff]
    generalize (w >>> 8).toUInt8 = x
    revert x
    rw [forall_uint8]
    decide +kernel
  rw [← hlo, ← hhi, word_hiByte_loByte]

namespace Registers

/-- A stack pair reads back what was written to it, AF without the low
nibble of F. -/
theorem get_set_stackPair (r : Registers) (p : StackPair) (w : UInt16) :
    (r.set p.reg w).get p.reg = if p = .af then w &&& 0xFFF0 else w := by
  cases p <;>
    simp only [StackPair.reg, set, get, bc, de, hl, af, setAf, setF, reduceCtorEq, if_false, if_true,
      word_hiByte_loByte, word_hiByte_loByte_and]

@[simp] theorem get_stackPair_setPc (r : Registers) (p : StackPair) (v : UInt16) :
    ({ r with pc := v }).get p.reg = r.get p.reg := by
  cases p <;> rfl

@[simp] theorem get_stackPair_setSp (r : Registers) (p : StackPair) (v : UInt16) :
    ({ r with sp := v }).get p.reg = r.get p.reg := by
  cases p <;> rfl

@[simp] theorem sp_set_stackPair (r : Registers) (p : StackPair) (v : UInt16) :
    (r.set p.reg v).sp = r.sp := by
  cases p <;> rfl

end Registers

/-! ### What a push writes and what a pop takes -/

namespace Instr

/-- The word a pushing instruction at `r.pc` pushes: `PUSH rr` the pair,
`CALL` the address after its three bytes, `RST` the address after its one. -/
def pushed (i : Instr) (r : Registers) : UInt16 :=
  match i with
  | push p => r.get p.reg
  | call _ => r.pc + 3
  | rst _ => r.pc + 1
  | _ => 0

/-- The registers `r` after a popping instruction show the word `w` it took:
`POP rr` put it in `rr` (AF keeps only the flag bits of its low byte), `RET`
and `RETI` jumped to it. -/
def Receives (i : Instr) (r : Registers) (w : UInt16) : Prop :=
  match i with
  | pop p => r.get p.reg = if p = .af then w &&& 0xFFF0 else w
  | ret _ | reti => r.pc = w
  | _ => False

variable {σ : Type} (c : Console σ)

/-- A pushing instruction that finishes moves SP down by two and stores its
word there, and writes nothing else. -/
theorem run_pushes {i : Instr} (hp : i.pushesWord c.regs.flags) {e : Effect} {s : Console σ}
    (h : (i.run : Exec σ Effect).run { c with regs := { c.regs with pc := c.regs.pc + 1 } } = .ok e s) :
    s.regs.sp = c.regs.sp - 2 ∧ s.bus = c.bus.storeWord (c.regs.sp - 2) (i.pushed c.regs) .little := by
  cases i with
  | push p =>
    rw [run_push] at h
    split_ifs at h
    cases h
    exact ⟨rfl, by simp [pushed]⟩
  | call cnd =>
    simp only [pushesWord] at hp
    rw [run_call] at h
    dsimp only at h
    rw [Registers.flags_with_pc] at h
    split_ifs at h
    -- the return address is the operand position plus the two operand bytes
    have hret : c.regs.pc + 1 + 2 = c.regs.pc + 3 := by rw [UInt16.add_assoc]; rfl
    cases h
    exact ⟨rfl, by simp [pushed, hret]⟩
  | rst n =>
    rw [run_rst] at h
    split_ifs at h
    cases h
    exact ⟨rfl, rfl⟩
  | _ => simp [pushesWord] at hp

/-- A popping instruction that finishes moves SP up by two, writes nothing,
and once the engine has moved PC on, the registers show the word that was at
SP as the instruction receives it. -/
theorem run_pops {i : Instr} (hp : i.popsWord c.regs.flags) {e : Effect} {s : Console σ}
    (h : (i.run : Exec σ Effect).run { c with regs := { c.regs with pc := c.regs.pc + 1 } } = .ok e s) :
    s.regs.sp = c.regs.sp + 2 ∧ s.bus = c.bus ∧
      i.Receives (if i.jumps then s.regs else s.regs.advancePc (UInt16.ofNat i.operandLen))
        (c.bus.loadWord c.regs.sp .little) := by
  cases i with
  | pop p =>
    rw [run_pop] at h
    split_ifs at h
    cases h
    refine ⟨by simp, rfl, ?_⟩
    simp only [jumps, Bool.false_eq_true, if_false, Registers.advancePc, Receives,
      Registers.get_stackPair_setPc]
    exact Registers.get_set_stackPair _ p _
  | ret cnd =>
    simp only [popsWord] at hp
    rw [run_ret] at h
    split_ifs at h with hholds
    · cases h
      exact ⟨rfl, rfl, rfl⟩
    · exact absurd hp hholds
  | reti =>
    rw [run_reti] at h
    split_ifs at h
    cases h
    exact ⟨rfl, rfl, rfl⟩
  | _ => simp [popsWord] at hp

end Instr

/-! ### The bytes the rest of a step leaves alone

After the instruction, the processor's step runs the interrupt controller,
which clears IF bits and runs handlers; the console's step then also steps
the PPU, which writes LY and STAT. A byte that is none of these and that no
handler writes comes out of the rest of the step as the instruction left it. -/

/-- Handlers that never change the byte at `a`. -/
def Hooks.KeepsByte {σ : Type} (hooks : Hooks σ) (a : UInt16) : Prop :=
  ∀ s st bus, (hooks.run s st bus).2.readByte a = bus.readByte a

/-- The byte at `a` is spared by everything in a step of the processor but
the instruction: it is not IF, and the handlers do not write it. -/
structure Hooks.CpuSpares {σ : Type} (hooks : Hooks σ) (a : UInt16) : Prop where
  not_if : a ≠ ioIf
  keeps : hooks.KeepsByte a

/-- The byte at `a` is spared by everything in a step of the console but the
instruction: the processor's step spares it, and it is not LY or STAT. -/
structure Hooks.Spares {σ : Type} (hooks : Hooks σ) (a : UInt16) : Prop extends hooks.CpuSpares a where
  not_ly : a ≠ ioLy
  not_stat : a ≠ ioStat

namespace Controller

variable {σ : Type} {hooks : Hooks σ} {a : UInt16}

/-- A pass of the controller keeps every byte but IF that the handlers keep. -/
theorem service_readByte (hk : hooks.KeepsByte a) (ha : a ≠ ioIf) (ctl : Controller σ) (bus : Bus) :
    (ctl.service hooks bus).2.1.readByte a = bus.readByte a :=
  service_keeps hooks (w := fun b => b.readByte a) hk (fun _ _ => Bus.readByte_writeByte_io _ _ (by decide) ha)
    ctl bus

end Controller

/-- A PPU step writes LY and STAT and no other byte. -/
theorem Ppu.step_readByte (p : Ppu) (bus : Bus) {a : UInt16} (hly : a ≠ ioLy) (hstat : a ≠ ioStat) :
    (p.step bus).2.readByte a = bus.readByte a :=
  Ppu.step_keeps (w := fun b => b.readByte a) (fun _ _ => Bus.readByte_writeByte_io _ _ (by decide) hly)
    (fun _ _ => Bus.readByte_writeByte_io _ _ (by decide) hstat) p bus

/-- A byte the processor's step spares comes out of the controller as it
went in. -/
theorem Hooks.CpuSpares.service {σ : Type} {hooks : Hooks σ} {a : UInt16} (h : hooks.CpuSpares a)
    (ctl : Controller σ) (bus : Bus) : (ctl.service hooks bus).2.1.readByte a = bus.readByte a :=
  Controller.service_readByte h.keeps h.not_if ctl bus

/-- A byte the console's step spares comes out of the controller and the PPU
as it went in. -/
theorem Hooks.Spares.service_step {σ : Type} {hooks : Hooks σ} {a : UInt16} (h : hooks.Spares a)
    (ctl : Controller σ) (p : Ppu) (bus : Bus) :
    (p.step (ctl.service hooks bus).2.1).2.readByte a = bus.readByte a := by
  rw [Ppu.step_readByte _ _ h.not_ly h.not_stat, h.toCpuSpares.service]

/-! ### Words on the bus -/

theorem toNat_sub_two {x : UInt16} (h : 2 ≤ x.toNat) : (x - 2).toNat = x.toNat - 2 :=
  UInt16.toNat_sub_of_le _ _ (UInt16.le_iff_toNat_le.2 h)

theorem toNat_add_one {x : UInt16} (h : x.toNat < 0xFFFF) : (x + 1).toNat = x.toNat + 1 := by
  rw [UInt16.toNat_add]
  simp only [UInt16.reduceToNat]
  omega

namespace Bus

/-- A byte write keeps every byte it does not store to. -/
theorem readByte_writeByte_of_not_stores (b : Bus) {w a : UInt16} (v : UInt8) (h : ¬ Stores w a.toNat) :
    (b.writeByte w v).readByte a = b.readByte a := by
  have hread := getElem_writeByte b w v a.toNat a.toNat_lt
  rw [if_neg fun hs => h hs.2] at hread
  exact hread

/-- A little-endian word write keeps every byte neither of its byte writes
stores to. -/
theorem readByte_storeWord (b : Bus) {w a : UInt16} (v : UInt16) (h₀ : ¬ Stores w a.toNat)
    (h₁ : ¬ Stores (w + 1) a.toNat) : (b.storeWord w v .little).readByte a = b.readByte a := by
  rw [storeWord_eq, readByte_writeByte_of_not_stores _ _ h₁, readByte_writeByte_of_not_stores _ _ h₀]

/-- A little-endian word written above the ROM window reads back, unless its
second byte's write stores over its first. -/
theorem loadWord_storeWord (b : Bus) {w : UInt16} (v : UInt16) (h₀ : 0x8000 ≤ w.toNat)
    (h₁ : 0x8000 ≤ (w + 1).toNat) (hne : ¬ Stores (w + 1) w.toNat) :
    (b.storeWord w v .little).loadWord w .little = v := by
  have hhi : (b.storeWord w v .little).readByte (w + 1) = hiByte v := by
    rw [storeWord_eq]
    exact readByte_writeByte_self _ _ h₁
  have hlo : (b.storeWord w v .little).readByte w = loByte v := by
    rw [storeWord_eq, readByte_writeByte_of_not_stores _ _ hne]
    exact readByte_writeByte_self _ _ h₀
  rw [loadWord, hhi, hlo, word_hiByte_loByte]

/-- A little-endian word written in the I/O page or high RAM, below 0xFFFF,
keeps every byte but its two. -/
theorem readByte_storeWord_io (b : Bus) {w a : UInt16} (v : UInt16) (hw₀ : 0xFE00 ≤ w.toNat)
    (hw₁ : w.toNat < 0xFFFF) (h₀ : a ≠ w) (h₁ : a ≠ w + 1) :
    (b.storeWord w v .little).readByte a = b.readByte a := by
  have hw : 0xFE00 ≤ (w + 1).toNat := by
    rw [toNat_add_one hw₁]
    omega
  rw [storeWord_eq, readByte_writeByte_io _ _ hw h₁, readByte_writeByte_io _ _ hw₀ h₀]

/-- A little-endian word reads the same from two buses that agree on its two
bytes. -/
theorem loadWord_congr {b b' : Bus} {w : UInt16} (h₀ : b'.readByte w = b.readByte w)
    (h₁ : b'.readByte (w + 1) = b.readByte (w + 1)) : b'.loadWord w .little = b.loadWord w .little := by
  rw [loadWord, loadWord, h₀, h₁]

end Bus

/-! ### Steps -/

/-- Only `HALT` and `STOP` report the effects that put the processor to sleep. -/
theorem Instr.effect_sleeps (i : Instr) (f : Flags) (sub : UInt8) :
    (i.effect f sub = .halt ↔ i = .halt) ∧ (i.effect f sub = .stop ↔ i = .stop) := by
  cases i <;> simp [Instr.effect, Exec.taken] <;> split_ifs <;> simp

/-- The engine's bookkeeping halts the processor only on `HALT`'s effect and
stops it only on `STOP`'s. -/
theorem Cpu.complete_sleeps (cpu : Cpu) (ime : Bool) (e : Effect) :
    (cpu.complete ime e).1.halted = (cpu.halted || e == .halt) ∧
      (cpu.complete ime e).1.stopped = (cpu.stopped || e == .stop) := by
  cases e <;> simp [Cpu.complete]

/-- A processor neither halted nor stopped is awake. -/
theorem Cpu.wake_of_flags {cpu : Cpu} {bus : Bus} (h₁ : cpu.halted = false) (h₂ : cpu.stopped = false) :
    (cpu.wake bus).2 = false := by
  simp [Cpu.wake, h₁, h₂]

namespace Console

variable {σ : Type} {hooks : Hooks σ} {c : Console σ}

/-- A step completes the instruction `i` exactly when the processor is awake,
the step succeeds, and `i` is the instruction at PC. -/
theorem executed?_eq_some_iff {i : Instr} :
    c.executed? hooks = some i ↔
      (c.cpu.wake c.bus).2 = false ∧ (∃ n, (step hooks c).result = .ok n) ∧
        decode (c.bus.readByte c.regs.pc) = some i := by
  unfold executed?
  cases (c.cpu.wake c.bus).2 <;> cases (step hooks c).result <;> simp

/-- A step of an awake processor whose instruction finishes is that
instruction, then the engine's bookkeeping, the controller, the PPU and the
cycle count. -/
theorem step_console_of_execute (hawake : (c.cpu.wake c.bus).2 = false) {n : Nat} {s : Console σ}
    (hx : (execute : Exec σ Nat).run { c with cpu := { c.cpu with halted := false, stopped := false } } =
      .ok n s) :
    (step hooks c).console =
      { s with
        interrupts := (s.interrupts.service hooks s.bus).1
        bus := (s.ppu.step (s.interrupts.service hooks s.bus).2.1).2
        ppu := (s.ppu.step (s.interrupts.service hooks s.bus).2.1).1
        cycles := s.cycles + n } := by
  unfold step stepWith
  rw [Cpu.wake_of_awake hawake]
  simp [advance, cpuAdvance, hx]

/-- A step of a sleeping processor idles for 4 cycles; then come the
controller, the PPU and the cycle count. -/
theorem step_console_of_asleep (hasleep : (c.cpu.wake c.bus).2 = true) :
    (step hooks c).result = .ok 4 ∧
    (step hooks c).console =
      { c with
        cpu := (c.cpu.wake c.bus).1
        interrupts := (c.interrupts.service hooks c.bus).1
        bus := (c.ppu.step (c.interrupts.service hooks c.bus).2.1).2
        ppu := (c.ppu.step (c.interrupts.service hooks c.bus).2.1).1
        cycles := c.cycles + 4 } := by
  unfold step stepWith
  simp [hasleep, advance, cpuAdvance]

/-- A step of the processor alone after an awake processor's instruction:
only the controller runs after it. -/
theorem cpuStep_console_of_execute (hawake : (c.cpu.wake c.bus).2 = false) {n : Nat} {s : Console σ}
    (hx : (execute : Exec σ Nat).run { c with cpu := { c.cpu with halted := false, stopped := false } } =
      .ok n s) :
    (cpuStep hooks c).console =
      { s with
        interrupts := (s.interrupts.service hooks s.bus).1
        bus := (s.interrupts.service hooks s.bus).2.1 } := by
  unfold cpuStep stepWith
  rw [Cpu.wake_of_awake hawake]
  simp [cpuAdvance, hx]

/-- A step of a sleeping processor alone idles for 4 cycles, and only the
controller runs. -/
theorem cpuStep_console_of_asleep (hasleep : (c.cpu.wake c.bus).2 = true) :
    (cpuStep hooks c).result = .ok 4 ∧
    (cpuStep hooks c).console =
      { c with
        cpu := (c.cpu.wake c.bus).1
        interrupts := (c.interrupts.service hooks c.bus).1
        bus := (c.interrupts.service hooks c.bus).2.1 } := by
  unfold cpuStep stepWith
  simp [hasleep, cpuAdvance]

/-- The processor's step fails or succeeds as the console's, with the same
cycles: the PPU and the cycle count come after it. -/
theorem cpuStep_result (c : Console σ) : (cpuStep hooks c).result = (step hooks c).result := by
  unfold cpuStep step stepWith
  rcases c.cpu.wake c.bus with ⟨cpu, asleep⟩
  dsimp only
  simp only [advance, EStateM.run_bind]
  cases (cpuAdvance hooks asleep).run { c with cpu } <;> rfl

/-- An awake processor whose instruction finishes completes it in the step. -/
theorem executed?_of_run (hawake : (c.cpu.wake c.bus).2 = false) {i : Instr}
    (hd : decode (c.bus.readByte c.regs.pc) = some i) {e : Effect} {s : Console σ}
    (hrun : (i.run : Exec σ Effect).run
        { c with cpu := { c.cpu with halted := false, stopped := false },
                 regs := { c.regs with pc := c.regs.pc + 1 } } = .ok e s) :
    c.executed? hooks = some i := by
  have hx := (execute_eq_ok_iff { c with cpu := { c.cpu with halted := false, stopped := false } } _ _).2
    ⟨i, e, s, hd, hrun, rfl, rfl⟩
  exact executed?_eq_some_iff.2 ⟨hawake, ⟨_, (step_eq_ok_iff hooks hawake _).2 ⟨_, hx⟩⟩, hd⟩

/-- A step of an awake processor that succeeds completes an instruction. -/
theorem executed?_of_ok (hawake : (c.cpu.wake c.bus).2 = false) {n : Nat}
    (hr : (step hooks c).result = .ok n) : ∃ i, c.executed? hooks = some i := by
  obtain ⟨s, hx⟩ := (step_eq_ok_iff hooks hawake n).1 hr
  obtain ⟨i, e, s', hd, hrun, -⟩ := (execute_eq_ok_iff _ n s).1 hx
  exact ⟨i, executed?_of_run hawake hd hrun⟩

/-- An awake `PUSH rr` completes unless SP = 1. -/
theorem executed?_of_push (hawake : (c.cpu.wake c.bus).2 = false) {p : StackPair}
    (hd : decode (c.bus.readByte c.regs.pc) = some (.push p)) (hsp : c.regs.sp ≠ 1) :
    c.executed? hooks = some (.push p) :=
  executed?_of_run hawake hd ((Instr.run_push _ p).trans (if_neg hsp))

/-- An awake `POP rr` completes unless SP = 0xFFFF. -/
theorem executed?_of_pop (hawake : (c.cpu.wake c.bus).2 = false) {p : StackPair}
    (hd : decode (c.bus.readByte c.regs.pc) = some (.pop p)) (hsp : c.regs.sp ≠ 0xFFFF) :
    c.executed? hooks = some (.pop p) :=
  executed?_of_run hawake hd ((Instr.run_pop _ p).trans (if_neg hsp))

/-! ### What the stack argument needs of a step

The argument runs over either step, the console's or the processor's alone.
All it uses of a step is that it succeeds as the console's step does, that
after an instruction it keeps what the instruction left, and that a sleeping
processor's step keeps the registers; each over the bytes the rest of the
step spares. -/

/-- A step function `st` for the stack argument, with `spare` the bytes the
rest of its step leaves alone: it fails or succeeds as the console's step
does; after an awake processor's instruction the registers, the control state
and every spared byte are as the instruction left them; and a sleeping
processor's step keeps the registers and every spared byte. -/
structure StackStep (hooks : Hooks σ) (st : Console σ → Run σ) (spare : UInt16 → Prop) : Prop where
  result : ∀ c, (st c).result = (step hooks c).result
  awake : ∀ {c : Console σ} {n : Nat} {s : Console σ}, (c.cpu.wake c.bus).2 = false →
    (execute : Exec σ Nat).run { c with cpu := { c.cpu with halted := false, stopped := false } } = .ok n s →
    (st c).console.regs = s.regs ∧ (st c).console.cpu = s.cpu ∧
      ∀ a, spare a → (st c).console.bus.readByte a = s.bus.readByte a
  asleep : ∀ {c : Console σ}, (c.cpu.wake c.bus).2 = true →
    (st c).console.regs = c.regs ∧ ∀ a, spare a → (st c).console.bus.readByte a = c.bus.readByte a

/-- The console's step, over the bytes it spares. -/
theorem stackStep_step : StackStep hooks (step hooks) hooks.Spares where
  result _ := rfl
  awake hawake hx := by
    rw [step_console_of_execute hawake hx]
    exact ⟨rfl, rfl, fun a ha => ha.service_step _ _ _⟩
  asleep hasleep := by
    rw [(step_console_of_asleep hasleep).2]
    exact ⟨rfl, fun a ha => ha.service_step _ _ _⟩

/-- The processor's step, over the bytes it spares: LY and STAT among them. -/
theorem stackStep_cpuStep : StackStep hooks (cpuStep hooks) hooks.CpuSpares where
  result := cpuStep_result
  awake hawake hx := by
    rw [cpuStep_console_of_execute hawake hx]
    exact ⟨rfl, rfl, fun a ha => ha.service _ _⟩
  asleep hasleep := by
    rw [(cpuStep_console_of_asleep hasleep).2]
    exact ⟨rfl, fun a ha => ha.service _ _⟩

namespace StackStep

variable {st : Console σ → Run σ} {spare : UInt16 → Prop} (hst : StackStep hooks st spare)
include hst

/-- A step that completes `i` runs it on the woken console with PC on its
operands; the registers after the step are those `i` left, PC moved past the
operands unless `i` jumps, and every spared byte is as `i` left it. -/
theorem of_executed {i : Instr} (h : c.executed? hooks = some i) :
    ∃ e s, (i.run : Exec σ Effect).run
        { c with cpu := { c.cpu with halted := false, stopped := false },
                 regs := { c.regs with pc := c.regs.pc + 1 } } = .ok e s ∧
      (st c).console.regs =
        (if i.jumps then s.regs else s.regs.advancePc (UInt16.ofNat i.operandLen)) ∧
      (∀ a, spare a → (st c).console.bus.readByte a = s.bus.readByte a) ∧
      (st c).console.cpu = ({ s.cpu with executed := s.cpu.executed + 1 }.complete s.interrupts.ime e).1 := by
  obtain ⟨hawake, ⟨n, hr⟩, hd⟩ := executed?_eq_some_iff.1 h
  obtain ⟨s, hx⟩ := (step_eq_ok_iff hooks hawake n).1 hr
  obtain ⟨i', e, s', hd', hrun, rfl, -⟩ := (execute_eq_ok_iff _ n s).1 hx
  -- the woken console has the registers and the bus of `c`, so its instruction is `i`
  obtain rfl : i = i' := (Option.some.inj (hd'.symm.trans hd)).symm
  obtain ⟨hregs, hcpu, hbus⟩ := hst.awake hawake hx
  exact ⟨e, s', hrun, hregs, hbus, hcpu⟩

/-- A step that completes any instruction but `HALT` and `STOP` leaves the
processor awake. -/
theorem awake_of_executed {i : Instr} (h : c.executed? hooks = some i) (hh : i ≠ .halt) (hs : i ≠ .stop) :
    ((st c).console.cpu.wake (st c).console.bus).2 = false := by
  obtain ⟨e, s, hrun, -, -, hcpu⟩ := hst.of_executed h
  -- the instruction left the woken control state, and its effect is not a sleeping one
  have hframe := (Instr.run_control_of_ok i hrun).1
  have he := Instr.run_effect i _ hrun
  have hnh : e ≠ .halt := fun h => hh ((Instr.effect_sleeps i _ _).1.1 (he ▸ h))
  have hns : e ≠ .stop := fun h => hs ((Instr.effect_sleeps i _ _).2.1 (he ▸ h))
  obtain ⟨hhalt, hstop⟩ := Cpu.complete_sleeps { s.cpu with executed := s.cpu.executed + 1 } s.interrupts.ime e
  apply Cpu.wake_of_flags <;> rw [hcpu]
  · rw [hhalt, hframe]
    simpa using hnh
  · rw [hstop, hframe]
    simpa using hns

/-- A step that completes a push moves SP down by two, and every spared byte
reads as the push's word write left it. -/
theorem push_step {i : Instr} (h : c.executed? hooks = some i) (hi : i.pushesWord c.regs.flags) :
    (st c).console.regs.sp = c.regs.sp - 2 ∧
    ∀ a, spare a → (st c).console.bus.readByte a =
      (c.bus.storeWord (c.regs.sp - 2) (i.pushed c.regs) .little).readByte a := by
  obtain ⟨e, s, hrun, hregs, hbus, -⟩ := hst.of_executed h
  obtain ⟨hsp, hs⟩ := Instr.run_pushes { c with cpu := { c.cpu with halted := false, stopped := false } } hi hrun
  refine ⟨?_, fun a ha => by rw [hbus a ha, hs]⟩
  rw [hregs]
  split <;> exact hsp

/-- A step that completes a pop moves SP up by two, writes no spared byte, and
leaves the registers showing the word that was at SP as the pop receives it. -/
theorem pop_step {j : Instr} (h : c.executed? hooks = some j) (hj : j.popsWord c.regs.flags) :
    (st c).console.regs.sp = c.regs.sp + 2 ∧
    j.Receives (st c).console.regs (c.bus.loadWord c.regs.sp .little) ∧
    ∀ a, spare a → (st c).console.bus.readByte a = c.bus.readByte a := by
  obtain ⟨e, s, hrun, hregs, hbus, -⟩ := hst.of_executed h
  obtain ⟨hsp, hs, hrec⟩ := Instr.run_pops { c with cpu := { c.cpu with halted := false, stopped := false } } hj hrun
  refine ⟨?_, by rw [hregs]; exact hrec, fun a ha => by rw [hbus a ha, hs]⟩
  rw [hregs]
  split <;> exact hsp

/-- A step that completes `PUSH rr` leaves the registers with SP two lower
and PC one past the opcode. -/
theorem regs_of_push {p : StackPair} (h : c.executed? hooks = some (.push p)) :
    (st c).console.regs = { c.regs with sp := c.regs.sp - 2, pc := c.regs.pc + 1 } := by
  obtain ⟨e, s, hrun, hregs, -, -⟩ := hst.of_executed h
  rw [Instr.run_push] at hrun
  split_ifs at hrun
  cases hrun
  rw [hregs]
  simp [Registers.advancePc, Instr.operandLen]

/-- A step that completes `POP rr` leaves `rr` holding the word at SP, as the
pair takes it, SP two higher and PC one past the opcode. -/
theorem regs_of_pop {p : StackPair} (h : c.executed? hooks = some (.pop p)) :
    (st c).console.regs =
      ({ c.regs with sp := c.regs.sp + 2, pc := c.regs.pc + 1 }).set p.reg (c.bus.loadWord c.regs.sp .little) := by
  obtain ⟨e, s, hrun, hregs, -, -⟩ := hst.of_executed h
  rw [Instr.run_pop] at hrun
  split_ifs at hrun
  cases hrun
  rw [hregs]
  cases p <;> simp [Registers.advancePc, Instr.operandLen, Registers.set]

/-- A step that completes `NOP` moves PC past it and keeps every spared byte. -/
theorem of_nop (h : c.executed? hooks = some .nop) :
    (st c).console.regs = { c.regs with pc := c.regs.pc + 1 } ∧
      ∀ a, spare a → (st c).console.bus.readByte a = c.bus.readByte a := by
  obtain ⟨e, s, hrun, hregs, hbus, -⟩ := hst.of_executed h
  cases hrun
  refine ⟨?_, hbus⟩
  rw [hregs]
  simp [Registers.advancePc, Instr.operandLen]

end StackStep

/-- A step of `st` that leaves the stack from SP up to `top` alone: it
succeeds, and the instruction it completes, if any, keeps SP and writes none
of the bytes from SP up to `top`. -/
structure Neutral (hooks : Hooks σ) (st : Console σ → Run σ) (top : Nat) (c : Console σ) : Prop where
  ok : ∃ n, (st c).result = .ok n
  keeps : ∀ i, c.executed? hooks = some i → ∀ e s,
    (i.run : Exec σ Effect).run
        { c with cpu := { c.cpu with halted := false, stopped := false },
                 regs := { c.regs with pc := c.regs.pc + 1 } } = .ok e s →
      s.regs.sp = c.regs.sp ∧
        ∀ a : UInt16, c.regs.sp.toNat ≤ a.toNat → a.toNat < top → s.bus.readByte a = c.bus.readByte a

/-- A neutral step keeps SP and every spared byte from SP up to `top`. -/
theorem StackStep.neutral_step {st : Console σ → Run σ} {spare : UInt16 → Prop}
    (hst : StackStep hooks st spare) {top : Nat} (hn : Neutral hooks st top c) :
    (st c).console.regs.sp = c.regs.sp ∧
    ∀ a, spare a → c.regs.sp.toNat ≤ a.toNat → a.toNat < top →
      (st c).console.bus.readByte a = c.bus.readByte a := by
  cases hw : (c.cpu.wake c.bus).2 with
  | true =>
    -- asleep: no instruction runs
    obtain ⟨hregs, hbus⟩ := hst.asleep hw
    exact ⟨by rw [hregs], fun a ha _ _ => hbus a ha⟩
  | false =>
    obtain ⟨n, hr⟩ := hn.ok
    obtain ⟨i, hi⟩ := executed?_of_ok hw ((hst.result c).symm.trans hr)
    obtain ⟨e, s, hrun, hregs, hbus, -⟩ := hst.of_executed hi
    obtain ⟨hsp, hkeep⟩ := hn.keeps i hi e s hrun
    refine ⟨?_, fun a ha h₁ h₂ => by rw [hbus a ha, hkeep a h₁ h₂]⟩
    rw [hregs]
    split <;> exact hsp

/-- A step that completes `NOP` is neutral. -/
theorem StackStep.neutral_of_nop {st : Console σ → Run σ} {spare : UInt16 → Prop}
    (hst : StackStep hooks st spare) (h : c.executed? hooks = some .nop) (top : Nat) :
    Neutral hooks st top c := by
  refine ⟨?_, fun i hi e s hrun => ?_⟩
  · obtain ⟨-, hok, -⟩ := executed?_eq_some_iff.1 h
    rw [hst.result]
    exact hok
  · obtain rfl : i = .nop := Option.some.inj (hi.symm.trans h)
    cases hrun
    exact ⟨rfl, fun _ _ _ => rfl⟩

/-! ### Runs that push and pop in nested order -/

/-- The bytes `lo ≤ a < top` can hold a stack: they lie above the ROM window,
the rest of every step spares them (`spare`), and no two of them are echo
partners. -/
structure SafeStack (spare : UInt16 → Prop) (lo top : Nat) : Prop where
  above_rom : 0x8000 ≤ lo
  spared : ∀ a : UInt16, lo ≤ a.toNat → a.toNat < top → spare a
  no_echo : ∀ a b : UInt16, lo ≤ a.toNat → a.toNat < top → lo ≤ b.toNat → b.toNat < top →
    echoOf? a ≠ some b

/-- In a safe stack area, a byte write to one address stores nothing at
another. -/
theorem SafeStack.not_stores {spare : UInt16 → Prop} {lo top : Nat} (h : SafeStack spare lo top)
    {x a : UInt16} (hx₀ : lo ≤ x.toNat) (hx₁ : x.toNat < top) (ha₀ : lo ≤ a.toNat) (ha₁ : a.toNat < top)
    (hne : x.toNat ≠ a.toNat) : ¬ Bus.Stores x a.toNat := by
  rintro (heq | hecho)
  · exact hne heq
  · obtain ⟨e, he, hea⟩ := Option.map_eq_some_iff.1 hecho
    exact h.no_echo x a hx₀ hx₁ ha₀ ha₁ (he.trans (congrArg some (UInt16.toNat_inj.1 hea)))

/-- A run of steps of `st` that pushes `k` words and pops them in reverse
order, from `c` to `c'`, with neutral steps anywhere in between; `ps` holds,
outermost first, each pop's console and the word its matching push pushed. -/
inductive Nested (hooks : Hooks σ) (st : Console σ → Run σ) (top : Nat) :
    Nat → Console σ → Console σ → List (Console σ × UInt16) → Prop
  /-- No step at all. -/
  | done (c : Console σ) : Nested hooks st top 0 c c []
  /-- A neutral step, then the rest. -/
  | neutral {k : Nat} {c c' : Console σ} {ps : List (Console σ × UInt16)}
      (hn : Neutral hooks st top c) (rest : Nested hooks st top k (st c).console c' ps) :
      Nested hooks st top k c c' ps
  /-- A push, a run of depth `k` from there to the matching pop at `d`, the pop,
  and neutral steps after it. -/
  | nest {k : Nat} {c d c' : Console σ} {ps : List (Console σ × UInt16)} {i j : Instr}
      (hpush : c.executed? hooks = some i) (hi : i.pushesWord c.regs.flags)
      (inner : Nested hooks st top k (st c).console d ps)
      (hpop : d.executed? hooks = some j) (hj : j.popsWord d.regs.flags)
      (rest : Nested hooks st top 0 (st d).console c' []) :
      Nested hooks st top (k + 1) c c' ((d, i.pushed c.regs) :: ps)

section Runs

variable {st : Console σ → Run σ} {spare : UInt16 → Prop} (hst : StackStep hooks st spare)
include hst

/-- A push whose two bytes below SP lie in a safe area: the word at the new SP
reads back as the pushed word, and the bytes from the old SP up to `top` are
kept. -/
theorem StackStep.push_step_in {lo top : Nat} (harea : SafeStack spare lo top) {i : Instr}
    (h : c.executed? hooks = some i) (hi : i.pushesWord c.regs.flags)
    (hlo : lo + 2 ≤ c.regs.sp.toNat) (htop : c.regs.sp.toNat ≤ top) :
    (st c).console.regs.sp = c.regs.sp - 2 ∧
    (st c).console.bus.loadWord (c.regs.sp - 2) .little = i.pushed c.regs ∧
    ∀ a : UInt16, c.regs.sp.toNat ≤ a.toNat → a.toNat < top →
      (st c).console.bus.readByte a = c.bus.readByte a := by
  obtain ⟨hsp, hbus⟩ := hst.push_step h hi
  have hrom := harea.above_rom
  have hlt := c.regs.sp.toNat_lt
  -- the word goes to the two bytes below SP
  have hx : (c.regs.sp - 2).toNat = c.regs.sp.toNat - 2 := toNat_sub_two (by omega)
  have hx₁ : (c.regs.sp - 2 + 1).toNat = c.regs.sp.toNat - 1 := by
    rw [toNat_add_one (by omega), hx]
    omega
  refine ⟨hsp, ?_, fun a h₁ h₂ => ?_⟩
  · rw [Bus.loadWord_congr (hbus _ (harea.spared _ (by omega) (by omega)))
      (hbus _ (harea.spared _ (by omega) (by omega)))]
    exact Bus.loadWord_storeWord _ _ (by omega) (by omega)
      (harea.not_stores (by omega) (by omega) (by omega) (by omega) (by omega))
  · rw [hbus a (harea.spared a (by omega) h₂)]
    exact Bus.readByte_storeWord _ _ (harea.not_stores (by omega) (by omega) (by omega) h₂ (by omega))
      (harea.not_stores (by omega) (by omega) (by omega) h₂ (by omega))

/-- The run lemma: over a safe area from `lo` to `top`, a nested run of depth
`k` that starts with SP at least `2k` above `lo` and at most `top` ends with
SP where it started, keeps every byte from SP up to `top`, and each of its
pops takes back the word of its matching push. The induction follows the
nesting; the invariant it carries is that the bytes from SP up stay. -/
theorem Nested.lifo {lo top : Nat} (harea : SafeStack spare lo top) {k : Nat} {c c' : Console σ}
    {ps : List (Console σ × UInt16)} (h : Nested hooks st top k c c' ps) :
    lo + 2 * k ≤ c.regs.sp.toNat → c.regs.sp.toNat ≤ top →
    c'.regs.sp = c.regs.sp ∧
      (∀ a : UInt16, c.regs.sp.toNat ≤ a.toNat → a.toNat < top → c'.bus.readByte a = c.bus.readByte a) ∧
      ps.length = k ∧
      ∀ d w, (d, w) ∈ ps → ∃ j, d.executed? hooks = some j ∧ j.Receives (st d).console.regs w := by
  induction h with
  | done c => exact fun _ _ => ⟨rfl, fun _ _ _ => rfl, rfl, by simp⟩
  | neutral hn _ ih =>
    intro hlo htop
    obtain ⟨hsp, hkeep⟩ := hst.neutral_step hn
    obtain ⟨hsp', hkeep', hlen, hrec⟩ := ih (by rw [hsp]; exact hlo) (by rw [hsp]; exact htop)
    refine ⟨hsp'.trans hsp, fun a h₁ h₂ => ?_, hlen, hrec⟩
    rw [hkeep' a (by rw [hsp]; exact h₁) h₂, hkeep a (harea.spared a (by omega) h₂) h₁ h₂]
  | @nest k c d c' ps i j hpush hi _ hpop hj _ ih_in ih_rest =>
    intro hlo htop
    -- the push: SP moves down two, and the word reads back there
    obtain ⟨hsp₁, hword, hkeep₁⟩ := hst.push_step_in harea hpush hi (by omega) htop
    have hlt := c.regs.sp.toNat_lt
    have hx : (c.regs.sp - 2).toNat = c.regs.sp.toNat - 2 := toNat_sub_two (by omega)
    have hx₁ : (c.regs.sp - 2 + 1).toNat = c.regs.sp.toNat - 1 := by
      rw [toNat_add_one (by omega), hx]
      omega
    -- the inner run keeps SP and every byte from there up
    obtain ⟨hsp₂, hkeep₂, hlen, hrec⟩ := ih_in (by rw [hsp₁, hx]; omega) (by rw [hsp₁, hx]; omega)
    rw [hsp₁] at hsp₂ hkeep₂
    -- the matching pop takes the word the push left
    obtain ⟨hsp₃, hrecv, hkeep₃⟩ := hst.pop_step hpop hj
    have hread : d.bus.loadWord d.regs.sp .little = i.pushed c.regs := by
      rw [hsp₂, Bus.loadWord_congr (hkeep₂ _ (by omega) (by omega)) (hkeep₂ _ (by omega) (by omega)), hword]
    have hback : (st d).console.regs.sp = c.regs.sp := by
      rw [hsp₃, hsp₂, UInt16.sub_add_cancel]
    obtain ⟨hsp₄, hkeep₄, -, -⟩ := ih_rest (by rw [hback]; omega) (by rw [hback]; exact htop)
    refine ⟨hsp₄.trans hback, fun a h₁ h₂ => ?_, by simp [hlen], fun d' w hp => ?_⟩
    · rw [hkeep₄ a (by rw [hback]; exact h₁) h₂, hkeep₃ a (harea.spared a (by omega) h₂),
        hkeep₂ a (by omega) h₂, hkeep₁ a h₁ h₂]
    · rcases List.mem_cons.1 hp with hp | hp
      · obtain ⟨rfl, rfl⟩ := Prod.mk.inj hp
        exact ⟨j, hpop, hread ▸ hrecv⟩
      · exact hrec d' w hp

end Runs

/-- The stack is last in, first out, over steps of the console and over steps
of the processor alone. Take a run from `c` that pushes `k` words
(`PUSH rr`, taken `CALL`, `RST`) and then pops them in reverse order
(`POP rr`, taken `RET`, `RETI`), with steps in between that keep SP and write
no byte of the stack. Let the `2k` bytes below the starting SP lie above the
ROM window, hold no two echo partners, be written by no handler and not hold
IF, nor, for steps of the console, LY and STAT. Then SP ends where it
started, and each pop takes back the word of its matching push: `POP rr` puts
it in `rr` (with the low nibble of F cleared for AF), `RET` and `RETI` resume
at it, which is `p + 3` after a `CALL` at `p` and `p + 1` after an `RST` at
`p`. -/
theorem stack_lifo (hooks : Hooks σ) (st : Console σ → Run σ) (spare : UInt16 → Prop)
    (hst : (st = step hooks ∧ spare = hooks.Spares) ∨ (st = cpuStep hooks ∧ spare = hooks.CpuSpares))
    {k : Nat} {c c' : Console σ} {ps : List (Console σ × UInt16)}
    (hrun : Nested hooks st c.regs.sp.toNat k c c' ps)
    (harea : SafeStack spare (c.regs.sp.toNat - 2 * k) c.regs.sp.toNat) :
    c'.regs.sp = c.regs.sp ∧ ps.length = k ∧
      ∀ d w, (d, w) ∈ ps → ∃ j, d.executed? hooks = some j ∧ j.Receives (st d).console.regs w := by
  have hss : StackStep hooks st spare := by
    rcases hst with ⟨rfl, rfl⟩ | ⟨rfl, rfl⟩
    · exact stackStep_step
    · exact stackStep_cpuStep
  have hlo : c.regs.sp.toNat - 2 * k + 2 * k ≤ c.regs.sp.toNat := by
    have := harea.above_rom
    omega
  obtain ⟨hsp, -, hlen, hrec⟩ := Nested.lifo hss harea hrun hlo le_rfl
  exact ⟨hsp, hlen, hrec⟩

/-- A console about to run `PUSH BC`, `PUSH DE`, `NOP`, `POP BC` and
`POP DE` from 0xFF80 in high RAM, with BC = 0x1234, DE = 0x5678 and
SP = 0xFFFE. -/
def swapConsole : Console Unit :=
  { Console.new Config.standard () with
    regs := { Registers.powerOn with b := 0x12, c := 0x34, d := 0x56, e := 0x78, sp := 0xFFFE, pc := 0xFF80 }
    bus := (((((Bus.new .dmg).writeByte 0xFF80 0xC5).writeByte 0xFF81 0xD5).writeByte 0xFF82 0x00).writeByte
      0xFF83 0xC1).writeByte 0xFF84 0xD1 }

/-- The consoles of the run from `swapConsole`, step after step. -/
def swapRun : Nat → Console Unit
  | 0 => swapConsole
  | n + 1 => (step Hooks.none (swapRun n)).console

theorem swapRun_succ (n : Nat) : swapRun (n + 1) = (step Hooks.none (swapRun n)).console := rfl

/-- `PUSH BC`, `PUSH DE`, `NOP`, `POP BC`, `POP DE` is a nested run of depth
two with a neutral step inside, over the four bytes below SP = 0xFFFE, a safe
area: it exchanges BC and DE and leaves SP at 0xFFFE. -/
theorem stack_swaps_pairs :
    Nested Hooks.none (step Hooks.none) (swapRun 0).regs.sp.toNat 2 (swapRun 0) (swapRun 5)
        [(swapRun 4, 0x1234), (swapRun 3, 0x5678)] ∧
      SafeStack Hooks.none.Spares ((swapRun 0).regs.sp.toNat - 2 * 2) (swapRun 0).regs.sp.toNat ∧
      (swapRun 5).regs.sp = 0xFFFE ∧ (swapRun 4).regs.bc = 0x5678 ∧ (swapRun 5).regs.de = 0x1234 := by
  have hst : StackStep Hooks.none (step Hooks.none) Hooks.none.Spares := stackStep_step
  -- high RAM below 0xFFFF holds no I/O register, and the handlers write nothing
  have hspare : ∀ a : UInt16, 0xFF80 ≤ a.toNat → a.toNat < 0xFFFF → Hooks.none.Spares a := by
    intro a h₁ _
    refine ⟨⟨?_, fun _ _ _ => rfl⟩, ?_, ?_⟩ <;> rintro rfl <;> exact absurd h₁ (by decide)
  -- the program below 0xFFF0, away from the stack
  have hbus₀ : (swapRun 0).bus = (((((Bus.new .dmg).writeByte 0xFF80 0xC5).writeByte 0xFF81 0xD5).writeByte
      0xFF82 0x00).writeByte 0xFF83 0xC1).writeByte 0xFF84 0xD1 := rfl
  obtain ⟨hb₀, hb₁, hb₂, hb₃, hb₄⟩ : (swapRun 0).bus.readByte 0xFF80 = 0xC5 ∧
      (swapRun 0).bus.readByte 0xFF81 = 0xD5 ∧ (swapRun 0).bus.readByte 0xFF82 = 0x00 ∧
      (swapRun 0).bus.readByte 0xFF83 = 0xC1 ∧ (swapRun 0).bus.readByte 0xFF84 = 0xD1 := by
    simp (disch := decide) only [hbus₀, Bus.readByte_writeByte_self, Bus.readByte_writeByte_io]
    decide
  have hlow : ∀ a w : UInt16, a.toNat < 0xFFF0 → 0xFFF0 ≤ w.toNat → a ≠ w := by
    rintro a w h₁ h₂ rfl
    omega
  -- PUSH BC
  have hex₀ : (swapRun 0).executed? Hooks.none = some (.push .bc) :=
    executed?_of_push (Cpu.wake_of_flags rfl rfl)
      (by rw [show (swapRun 0).regs.pc = 0xFF80 from rfl, hb₀]; rfl) (by decide)
  have hr₁ := hst.regs_of_push hex₀
  have hpc₁ : (swapRun 1).regs.pc = 0xFF81 := by rw [swapRun_succ, hr₁]; rfl
  have hsp₁ : (swapRun 1).regs.sp = 0xFFFC := by rw [swapRun_succ, hr₁]; rfl
  have hde₁ : (swapRun 1).regs.de = 0x5678 := by rw [swapRun_succ, hr₁]; rfl
  have hk₁ : ∀ a : UInt16, 0xFF80 ≤ a.toNat → a.toNat < 0xFFF0 →
      (swapRun 1).bus.readByte a = (swapRun 0).bus.readByte a := by
    intro a h₁ h₂
    rw [swapRun_succ, (hst.push_step hex₀ rfl).2 a (hspare a h₁ (by omega))]
    exact Bus.readByte_storeWord_io _ _ (by decide) (by decide) (hlow _ _ h₂ (by decide))
      (hlow _ _ h₂ (by decide))
  -- PUSH DE
  have hex₁ : (swapRun 1).executed? Hooks.none = some (.push .de) := by
    refine executed?_of_push ?_ (by rw [hpc₁, hk₁ _ (by decide) (by decide), hb₁]; rfl) (by rw [hsp₁]; decide)
    rw [swapRun_succ]
    exact hst.awake_of_executed hex₀ (by decide) (by decide)
  have hr₂ := hst.regs_of_push hex₁
  have hpc₂ : (swapRun 2).regs.pc = 0xFF82 := by rw [swapRun_succ, hr₂, hpc₁]; rfl
  have hsp₂ : (swapRun 2).regs.sp = 0xFFFA := by rw [swapRun_succ, hr₂, hsp₁]; rfl
  have hk₂ : ∀ a : UInt16, 0xFF80 ≤ a.toNat → a.toNat < 0xFFF0 →
      (swapRun 2).bus.readByte a = (swapRun 1).bus.readByte a := by
    intro a h₁ h₂
    rw [swapRun_succ, (hst.push_step hex₁ rfl).2 a (hspare a h₁ (by omega)), hsp₁]
    exact Bus.readByte_storeWord_io _ _ (by decide) (by decide) (hlow _ _ h₂ (by decide))
      (hlow _ _ h₂ (by decide))
  -- NOP
  have hex₂ : (swapRun 2).executed? Hooks.none = some .nop := by
    refine executed?_of_run ?_
      (by rw [hpc₂, hk₂ _ (by decide) (by decide), hk₁ _ (by decide) (by decide), hb₂]; rfl) rfl
    rw [swapRun_succ]
    exact hst.awake_of_executed hex₁ (by decide) (by decide)
  have hn₂ := hst.of_nop hex₂
  have hpc₃ : (swapRun 3).regs.pc = 0xFF83 := by rw [swapRun_succ, hn₂.1, hpc₂]; rfl
  have hsp₃ : (swapRun 3).regs.sp = 0xFFFA := by
    rw [swapRun_succ, (hst.neutral_step (hst.neutral_of_nop hex₂ 0)).1, hsp₂]
  -- POP BC
  have hex₃ : (swapRun 3).executed? Hooks.none = some (.pop .bc) := by
    refine executed?_of_pop ?_
      (by rw [hpc₃, swapRun_succ, hn₂.2 _ (hspare _ (by decide) (by decide)), hk₂ _ (by decide) (by decide),
        hk₁ _ (by decide) (by decide), hb₃]; rfl) (by rw [hsp₃]; decide)
    rw [swapRun_succ]
    exact hst.awake_of_executed hex₂ (by decide) (by decide)
  have hr₄ := hst.regs_of_pop hex₃
  have hpc₄ : (swapRun 4).regs.pc = 0xFF84 := by
    rw [swapRun_succ, hr₄, Registers.pc_set_stackPair, hpc₃]
    rfl
  have hsp₄ : (swapRun 4).regs.sp = 0xFFFC := by
    rw [swapRun_succ, hr₄, Registers.sp_set_stackPair, hsp₃]
    rfl
  -- POP DE
  have hw₄ : ((swapRun 4).cpu.wake (swapRun 4).bus).2 = false := by
    rw [swapRun_succ]
    exact hst.awake_of_executed hex₃ (by decide) (by decide)
  have hd₄ : decode ((swapRun 4).bus.readByte (swapRun 4).regs.pc) = some (.pop .de) := by
    rw [hpc₄, swapRun_succ, (hst.pop_step hex₃ rfl).2.2 _ (hspare _ (by decide) (by decide)),
      swapRun_succ, hn₂.2 _ (hspare _ (by decide) (by decide)), hk₂ _ (by decide) (by decide),
      hk₁ _ (by decide) (by decide), hb₄]
    rfl
  have hex₄ : (swapRun 4).executed? Hooks.none = some (.pop .de) :=
    executed?_of_pop hw₄ hd₄ (by rw [hsp₄]; decide)
  -- the run, nested: PUSH BC, then PUSH DE, NOP and POP BC, then POP DE
  have hnop : Nested Hooks.none (step Hooks.none) (swapRun 0).regs.sp.toNat 0 (swapRun 2) (swapRun 3) [] := by
    rw [swapRun_succ 2]
    exact .neutral (hst.neutral_of_nop hex₂ _) (.done _)
  have hinner : Nested Hooks.none (step Hooks.none) (swapRun 0).regs.sp.toNat 1 (swapRun 1) (swapRun 4)
      [(swapRun 3, (swapRun 1).regs.de)] := by
    rw [swapRun_succ 3]
    refine .nest hex₁ rfl ?_ hex₃ rfl (.done _)
    rw [← swapRun_succ]
    exact hnop
  have hnest : Nested Hooks.none (step Hooks.none) (swapRun 0).regs.sp.toNat 2 (swapRun 0) (swapRun 5)
      [(swapRun 4, 0x1234), (swapRun 3, 0x5678)] := by
    rw [swapRun_succ 4, ← hde₁]
    refine .nest hex₀ rfl ?_ hex₄ rfl (.done _)
    rw [← swapRun_succ]
    exact hinner
  -- the four bytes 0xFFFA to 0xFFFD: high RAM, spared, no echoes
  have hsp₀ : (swapRun 0).regs.sp.toNat = 0xFFFE := rfl
  have harea : SafeStack Hooks.none.Spares ((swapRun 0).regs.sp.toNat - 2 * 2) (swapRun 0).regs.sp.toNat := by
    refine ⟨by decide, fun a h₁ h₂ => hspare a (by omega) (by omega), fun a b h₁ h₂ _ _ he => ?_⟩
    have hm := echoOf?_map_toNat a
    rw [he, if_neg (by omega), if_neg (by omega)] at hm
    simp at hm
  obtain ⟨hsp, -, hrec⟩ := stack_lifo Hooks.none (step Hooks.none) Hooks.none.Spares (.inl ⟨rfl, rfl⟩) hnest harea
  obtain ⟨j₃, hj₃, hbc⟩ := hrec (swapRun 3) 0x5678 (.tail _ (.head _))
  obtain ⟨j₄, hj₄, hde⟩ := hrec (swapRun 4) 0x1234 (.head _)
  rw [hex₃] at hj₃
  rw [hex₄] at hj₄
  cases hj₃
  cases hj₄
  refine ⟨hnest, harea, hsp.trans rfl, ?_, ?_⟩
  · rw [swapRun_succ]
    exact hbc
  · rw [swapRun_succ]
    exact hde

end Console
end Dmg
