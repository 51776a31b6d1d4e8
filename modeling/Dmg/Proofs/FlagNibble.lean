import Dmg.Proofs.Counting
import Dmg.Proofs.Loading
/-!
# The low nibble of F

F keeps the four flags in its high nibble, and its low nibble is always zero
(`Registers.LowClear`). Every path that writes F keeps it so: `setF` masks its
byte, a flag is set or cleared through its own high bit, `clearFlags` writes
zero, and every arithmetic helper writes its flags into the high nibble, after
clearing F or one bit at a time. So a register file reached from power-on or
from the cleared file by any sequence of the register file's operations
(`RegOp`) has F's low nibble clear, and with it AF's.

Along the processor's runs the same holds. Every instruction keeps the nibble
clear, `POP AF` of any word included (`Instr.run_preserves_lowClear`); the
engine's bookkeeping, the interrupt controller and the PPU leave the
registers alone; so a step of the processor alone and a step of the console
keep it, and so does every run of them from a console whose F is clear below
(`Console.lowClear_iterate_cpuStep`, `Console.lowClear_iterate_step`). Every
console a session reaches has it (`Console.Reachable.lowClear`).

Key definitions: `Registers.LowClear`, `RegOp`, `RegOp.apply`, `RegOp.run`,
`Exec.Preserves`.
Key theorems: `RegOp.lowClear_apply`, `RegOp.lowClear_run`,
`Instr.run_preserves_lowClear`, `Console.lowClear_stepWith`,
`flag_low_nibble_clear`.
-/

namespace Dmg

/-! ### The register file -/

namespace Registers

/-- F's low nibble is clear. -/
def LowClear (r : Registers) : Prop := r.f &&& 0x0F = 0

instance (r : Registers) : Decidable r.LowClear := inferInstanceAs (Decidable (_ = _))

variable {r : Registers}

/-- With F's low nibble clear, so is AF's: F is AF's low byte. -/
theorem LowClear.af (h : r.LowClear) : r.af &&& 0x000F = 0 := by
  have hf : r.f.toNat % 16 = 0 := by
    have h' := congrArg UInt8.toNat h
    rwa [toNat_and_low, UInt8.toNat_zero] at h'
  apply UInt16.toNat.inj
  rw [toNat_and_nibble16, Registers.af, toNat_word, UInt16.toNat_zero]
  omega

theorem lowClear_powerOn : powerOn.LowClear := by decide

theorem lowClear_cleared : cleared.LowClear := by decide

/-- `setF` masks the low nibble away, whatever byte it is given. -/
theorem lowClear_setF (r : Registers) (v : UInt8) : (r.setF v).LowClear := by
  have hmask : (0xF0 &&& 0x0F : UInt8) = 0 := by decide
  simp only [LowClear, setF, UInt8.and_assoc, hmask, UInt8.and_zero]

theorem lowClear_clearFlags (r : Registers) : r.clearFlags.LowClear := by
  show (0 : UInt8) &&& 0x0F = 0
  decide

theorem LowClear.writeFlags (h : r.LowClear) (fl : Flags) : (r.writeFlags fl).LowClear := by
  simp only [LowClear, low_writeFlags]
  exact h

theorem LowClear.setFlag (h : r.LowClear) (fl : Flag) (v : Bool) : (r.setFlag fl v).LowClear := by
  rw [setFlag_eq_writeFlags]
  exact h.writeFlags _

/-- A write by name keeps the nibble clear: F and AF go through `setF`, and
the other registers leave F alone. -/
theorem LowClear.set (h : r.LowClear) (id : Reg) (v : UInt16) : (r.set id v).LowClear := by
  cases id
  case f => exact lowClear_setF _ _
  case af => exact lowClear_setF _ _
  all_goals exact h

theorem LowClear.write8 (h : r.LowClear) (q : R8) (v : UInt8) : (r.write8 q v).LowClear := by
  cases q <;> exact h

theorem LowClear.inc8 (h : r.LowClear) (v : UInt8) : (r.inc8 v).2.LowClear := by
  rw [inc8_eq]
  exact h.writeFlags _

theorem LowClear.dec8 (h : r.LowClear) (v : UInt8) : (r.dec8 v).2.LowClear := by
  rw [dec8_eq]
  exact h.writeFlags _

/-- Counting keeps the nibble clear: a wide register is written by name, a
byte register takes the counting flags and then its byte. -/
theorem LowClear.inc (h : r.LowClear) (id : Reg) : (r.inc id).LowClear := by
  unfold Registers.inc
  split
  · exact h.set _ _
  · rw [inc8_eq]
    dsimp only
    split
    · exact h.writeFlags _
    · exact (h.writeFlags _).set _ _

theorem LowClear.dec (h : r.LowClear) (id : Reg) : (r.dec id).LowClear := by
  unfold Registers.dec
  split
  · exact h.set _ _
  · rw [dec8_eq]
    dsimp only
    split
    · exact h.writeFlags _
    · exact (h.writeFlags _).set _ _

/-- The accumulator operations spell out all of F from their four flags. -/
theorem lowClear_accumulate (r : Registers) (op : AluOp) (v : UInt8) : (r.accumulate op v).LowClear := by
  rw [accumulate_eq]
  exact Flags.toByte_low _

/-- So do the shifts and rotates. -/
theorem lowClear_aluRotate (r : Registers) (s : Shift) (v : UInt8) : (r.aluRotate s v).2.LowClear := by
  rw [aluRotate_eq]
  exact Flags.toByte_low _

theorem LowClear.aluDaa (h : r.LowClear) : r.aluDaa.LowClear := by
  rw [aluDaa_eq]
  exact h.writeFlags _

theorem LowClear.aluAdd16Hl (h : r.LowClear) (v : UInt16) : (r.aluAdd16Hl v).LowClear := by
  rw [aluAdd16Hl_eq]
  exact h.writeFlags _

theorem LowClear.aluAdd16Signed (h : r.LowClear) (base : UInt16) (d : UInt8) :
    (r.aluAdd16Signed base d).2.LowClear := by
  rw [aluAdd16Signed_eq]
  exact h.writeFlags _

/-- A write by code that succeeds is a write by name. -/
theorem LowClear.of_setByCode (h : r.LowClear) {n : UInt8} {v : UInt16} {r' : Registers}
    (hs : r.setByCode n v = .ok r') : r'.LowClear := by
  unfold setByCode at hs
  cases hc : Reg.ofCode n with
  | error e => simp [hc, bind, Except.bind] at hs
  | ok id =>
    simp only [hc, bind, Except.bind, pure, Except.pure, Except.ok.injEq] at hs
    rw [← hs]
    exact h.set _ _

theorem LowClear.of_incByCode (h : r.LowClear) {n : UInt8} {x : UInt16 × Registers}
    (hs : r.incByCode n = .ok x) : x.2.LowClear := by
  unfold incByCode at hs
  cases hc : Reg.ofCode n with
  | error e => simp [hc, bind, Except.bind] at hs
  | ok id =>
    simp only [hc, bind, Except.bind, pure, Except.pure, Except.ok.injEq] at hs
    rw [← hs]
    exact h.inc _

theorem LowClear.of_decByCode (h : r.LowClear) {n : UInt8} {x : UInt16 × Registers}
    (hs : r.decByCode n = .ok x) : x.2.LowClear := by
  unfold decByCode at hs
  cases hc : Reg.ofCode n with
  | error e => simp [hc, bind, Except.bind] at hs
  | ok id =>
    simp only [hc, bind, Except.bind, pure, Except.pure, Except.ok.injEq] at hs
    rw [← hs]
    exact h.dec _

end Registers

/-! ### Sequences of operations -/

/-- An operation of the register file, with what it is given: the writes by
name and by code, the writes of F and AF, the flag operations, the counters
by name and by code, the increment and decrement flag rules, the moves of PC,
reset, and the arithmetic and logic helpers. -/
inductive RegOp where
  | set (id : Reg) (v : UInt16)
  | setByCode (code : UInt8) (v : UInt16)
  | setF (v : UInt8)
  | setAf (v : UInt16)
  | setFlag (fl : Flag) (v : Bool)
  | clearFlags
  | inc (id : Reg)
  | dec (id : Reg)
  | incByCode (code : UInt8)
  | decByCode (code : UInt8)
  | inc8 (v : UInt8)
  | dec8 (v : UInt8)
  | advancePc (n : UInt16)
  | rewindPc (n : UInt16)
  | reset
  | accumulate (op : AluOp) (v : UInt8)
  | daa
  | addHl (v : UInt16)
  | addSigned (base : UInt16) (d : UInt8)
  | rotate (s : Shift) (v : UInt8)
deriving DecidableEq, Repr

namespace RegOp

/-- The registers after the operation. An operation by a code that names no
register fails and leaves them as they were. -/
def apply : RegOp → Registers → Registers
  | set id v, r => r.set id v
  | setByCode n v, r =>
    match r.setByCode n v with
    | .ok r' => r'
    | .error _ => r
  | setF v, r => r.setF v
  | setAf v, r => r.setAf v
  | setFlag fl v, r => r.setFlag fl v
  | clearFlags, r => r.clearFlags
  | inc id, r => r.inc id
  | dec id, r => r.dec id
  | incByCode n, r =>
    match r.incByCode n with
    | .ok x => x.2
    | .error _ => r
  | decByCode n, r =>
    match r.decByCode n with
    | .ok x => x.2
    | .error _ => r
  | inc8 v, r => (r.inc8 v).2
  | dec8 v, r => (r.dec8 v).2
  | advancePc n, r => r.advancePc n
  | rewindPc n, r => r.rewindPc n
  | reset, _ => Registers.powerOn
  | accumulate op v, r => r.accumulate op v
  | daa, r => r.aluDaa
  | addHl v, r => r.aluAdd16Hl v
  | addSigned base d, r => (r.aluAdd16Signed base d).2
  | rotate s v, r => (r.aluRotate s v).2

/-- The registers after the operations, in order. -/
def run (ops : List RegOp) (r : Registers) : Registers := ops.foldl (fun r o => o.apply r) r

/-- **Every operation keeps F's low nibble clear.** -/
theorem lowClear_apply (o : RegOp) {r : Registers} (h : r.LowClear) : (o.apply r).LowClear := by
  cases o with
  | set id v => exact h.set id v
  | setByCode n v =>
    simp only [apply]
    split
    · exact h.of_setByCode ‹_›
    · exact h
  | setF v => exact Registers.lowClear_setF r v
  | setAf v => exact Registers.lowClear_setF _ _
  | setFlag fl v => exact h.setFlag fl v
  | clearFlags => exact Registers.lowClear_clearFlags r
  | inc id => exact h.inc id
  | dec id => exact h.dec id
  | incByCode n =>
    simp only [apply]
    split
    · exact h.of_incByCode ‹_›
    · exact h
  | decByCode n =>
    simp only [apply]
    split
    · exact h.of_decByCode ‹_›
    · exact h
  | inc8 v => exact h.inc8 v
  | dec8 v => exact h.dec8 v
  | advancePc n | rewindPc n => exact h
  | reset => exact Registers.lowClear_powerOn
  | accumulate op v => exact Registers.lowClear_accumulate r op v
  | daa => exact h.aluDaa
  | addHl v => exact h.aluAdd16Hl v
  | addSigned base d => exact h.aluAdd16Signed base d
  | rotate s v => exact Registers.lowClear_aluRotate r s v

/-- Every sequence of operations keeps it, by induction on the sequence. -/
theorem lowClear_run : ∀ (ops : List RegOp) {r : Registers}, r.LowClear → (run ops r).LowClear
  | [], _, h => h
  | o :: ops, _, h => lowClear_run ops (o.lowClear_apply h)

example : (run [.setAf 0xFFFF] Registers.powerOn).f = 0xF0 := by decide

end RegOp

/-! ### Actions that keep a property of the registers -/

namespace Exec

variable {σ α β : Type}

/-- Whatever `x` does, finished or failed, it keeps `P` of the console. -/
def Preserves (P : Console σ → Prop) (x : Exec σ α) : Prop := ∀ c, P c → P (final x c)

namespace Preserves

variable {P : Console σ → Prop}

theorem of_final {x : Exec σ α} (h : ∀ c, final x c = c) : Preserves P x := fun c hc => by rwa [h c]

protected theorem pure (a : α) : Preserves P (pure a : Exec σ α) := of_final fun _ => rfl

protected theorem bind {x : Exec σ α} {f : α → Exec σ β} (hx : Preserves P x)
    (hf : ∀ a, Preserves P (f a)) : Preserves P (x >>= f) := by
  intro c hc
  have h := hx c hc
  unfold final at h ⊢
  rw [EStateM.run_bind]
  cases hr : x.run c with
  | ok a s =>
    rw [hr] at h
    exact hf a s h
  | error e s =>
    rw [hr] at h
    exact h

protected theorem ite {p : Prop} [Decidable p] {x y : Exec σ α} (hx : Preserves P x)
    (hy : Preserves P y) : Preserves P (if p then x else y) := by
  split
  · exact hx
  · exact hy

protected theorem modify {f : Console σ → Console σ} (h : ∀ c, P c → P (f c)) :
    Preserves P (modify f : Exec σ PUnit) := h

theorem regs : Preserves P (regs : Exec σ Registers) := of_final fun _ => rfl

theorem read (a : UInt16) : Preserves P (read a : Exec σ UInt8) := of_final fun _ => rfl

theorem imm8 : Preserves P (imm8 : Exec σ UInt8) := of_final fun _ => rfl

theorem readWord (a : UInt16) : Preserves P (readWord a : Exec σ UInt16) :=
  of_final fun c => by by_cases h : a = 0xFFFF <;> simp [final, run_readWord, h]

theorem imm16 : Preserves P (imm16 : Exec σ UInt16) := regs.bind fun _ => readWord _

theorem readOp (o : Operand8) : Preserves P (readOp o : Exec σ UInt8) :=
  of_final fun c => by simp [final]

end Preserves

end Exec

/-! ### Instructions and steps -/

open Exec

section Steps

variable {σ : Type}

/-- The property of a console that F has a clear low nibble. -/
abbrev LowF : Console σ → Prop := fun c => c.regs.LowClear

/-! The actions that write keep it when the register update they make does:
the bus writes touch no register, and a stack access moves only SP. -/

theorem lowF_modifyRegs {g : Registers → Registers} (hg : ∀ r : Registers, r.LowClear → (g r).LowClear) :
    Preserves LowF (modifyRegs g : Exec σ Unit) := fun c hc => hg c.regs hc

theorem lowF_setPc (v : UInt16) : Preserves LowF (setPc v : Exec σ Unit) := lowF_modifyRegs fun _ h => by exact h

theorem lowF_write (a : UInt16) (v : UInt8) : Preserves LowF (write a v : Exec σ Unit) := fun _ hc => hc

theorem lowF_writeWord (a v : UInt16) : Preserves LowF (writeWord a v : Exec σ Unit) := by
  intro c hc
  by_cases h : a = 0xFFFF <;> simpa [final, run_writeWord, h] using hc

theorem lowF_push (v : UInt16) : Preserves LowF (push v : Exec σ Unit) :=
  Preserves.regs.bind fun _ => (lowF_writeWord _ _).bind fun _ => lowF_modifyRegs fun _ h => by exact h

theorem lowF_pop : Preserves LowF (pop : Exec σ UInt16) :=
  Preserves.regs.bind fun _ => (Preserves.readWord _).bind fun _ =>
    (lowF_modifyRegs fun _ h => by exact h).bind fun _ => .pure _

theorem lowF_writeOp (o : Operand8) (v : UInt8) : Preserves LowF (writeOp o v : Exec σ Unit) := by
  cases o with
  | reg q => exact lowF_modifyRegs fun _ h => by exact h.write8 q v
  | hlMem => exact Preserves.regs.bind fun _ => lowF_write _ _

theorem lowF_address (i : Indirect) : Preserves LowF (address i : Exec σ UInt16) := by
  cases i with
  | bc | de | highC => exact Preserves.regs.bind fun _ => .pure _
  | hlInc | hlDec =>
    exact Preserves.regs.bind fun _ => (lowF_modifyRegs fun _ h => by exact h).bind fun _ => .pure _
  | high => exact Preserves.imm8.bind fun _ => .pure _
  | absolute => exact Preserves.imm16

theorem lowF_accumulate (op : AluOp) (v : UInt8) : Preserves LowF (accumulate op v : Exec σ Unit) :=
  lowF_modifyRegs fun r _ => by exact Registers.lowClear_accumulate r op v

/-- A CB-page operation keeps the nibble clear: a shift spells out F, a bit
test sets three flags. -/
theorem CbOp.run_preserves_lowClear (c : CbOp) : Preserves LowF (c.run : Exec σ Effect) := by
  unfold CbOp.run
  refine (Preserves.readOp _).bind fun v => ?_
  dsimp only
  cases c.op with
  | shift s =>
    exact Preserves.regs.bind fun _ => (lowF_modifyRegs fun r _ => by exact Registers.lowClear_aluRotate r s v).bind
      fun _ => (lowF_writeOp _ _).bind fun _ => .pure _
  | test b =>
    exact (lowF_modifyRegs fun _ h => by exact ((h.setFlag _ _).setFlag _ _).setFlag _ _).bind fun _ => .pure _
  | reset b => exact (lowF_writeOp _ _).bind fun _ => .pure _
  | set b => exact (lowF_writeOp _ _).bind fun _ => .pure _

/-- **Every instruction keeps F's low nibble clear**, `POP AF` of any word
included: the proof for each has the shape of its action, each register
update being one of the register file's operations. -/
theorem Instr.run_preserves_lowClear : ∀ i : Instr, Preserves LowF (i.run : Exec σ Effect)
  | .nop | .stop | .halt | .di | .ei => .pure _
  | .daa => (lowF_modifyRegs fun _ h => by exact h.aluDaa).bind fun _ => .pure _
  | .cpl => (lowF_modifyRegs fun _ h => by exact (h.setFlag _ _).setFlag _ _).bind fun _ => .pure _
  | .scf | .ccf =>
    (lowF_modifyRegs fun _ h => by exact ((h.setFlag _ _).setFlag _ _).setFlag _ _).bind fun _ => .pure _
  | .rotateA s =>
    (lowF_modifyRegs fun r _ => by exact (Registers.lowClear_aluRotate r s r.a).setFlag _ _).bind fun _ => .pure _
  | .ld _ _ => (Preserves.readOp _).bind fun _ => (lowF_writeOp _ _).bind fun _ => .pure _
  | .ldImm _ => Preserves.imm8.bind fun _ => (lowF_writeOp _ _).bind fun _ => .pure _
  | .loadA _ =>
    (lowF_address _).bind fun _ => (Preserves.read _).bind fun _ =>
      (lowF_modifyRegs fun _ h => by exact h).bind fun _ => .pure _
  | .storeA _ =>
    Preserves.regs.bind fun _ => (lowF_address _).bind fun _ => (lowF_write _ _).bind fun _ => .pure _
  | .ldPairImm _ => Preserves.imm16.bind fun _ => (lowF_modifyRegs fun _ h => by exact h.set _ _).bind fun _ => .pure _
  | .storeSp =>
    Preserves.imm16.bind fun _ => Preserves.regs.bind fun _ => (lowF_writeWord _ _).bind fun _ => .pure _
  | .ldSpHl => (lowF_modifyRegs fun _ h => by exact h).bind fun _ => .pure _
  | .ldHlSpOffset | .addSp =>
    Preserves.imm8.bind fun _ => (lowF_modifyRegs fun _ h => by exact h.aluAdd16Signed _ _).bind fun _ => .pure _
  | .inc (.reg _) | .incPair _ => (lowF_modifyRegs fun _ h => by exact h.inc _).bind fun _ => .pure _
  | .dec (.reg _) | .decPair _ => (lowF_modifyRegs fun _ h => by exact h.dec _).bind fun _ => .pure _
  | .inc .hlMem =>
    Preserves.regs.bind fun _ => (Preserves.read _).bind fun _ => (lowF_modifyRegs fun _ h => by exact h.inc8 _).bind
      fun _ => (lowF_write _ _).bind fun _ => .pure _
  | .dec .hlMem =>
    Preserves.regs.bind fun _ => (Preserves.read _).bind fun _ => (lowF_modifyRegs fun _ h => by exact h.dec8 _).bind
      fun _ => (lowF_write _ _).bind fun _ => .pure _
  | .alu _ _ => (Preserves.readOp _).bind fun _ => (lowF_accumulate _ _).bind fun _ => .pure _
  | .aluImm _ => Preserves.imm8.bind fun _ => (lowF_accumulate _ _).bind fun _ => .pure _
  | .addHl _ => (lowF_modifyRegs fun _ h => by exact h.aluAdd16Hl _).bind fun _ => .pure _
  | .jr _ => Preserves.imm8.bind fun _ => Preserves.regs.bind fun _ =>
    .ite ((lowF_setPc _).bind fun _ => .pure _) ((lowF_setPc _).bind fun _ => .pure _)
  | .jp _ => Preserves.imm16.bind fun _ => Preserves.regs.bind fun _ =>
    .ite ((lowF_setPc _).bind fun _ => .pure _) ((lowF_setPc _).bind fun _ => .pure _)
  | .jpHl => Preserves.regs.bind fun _ => (lowF_setPc _).bind fun _ => .pure _
  | .call _ => Preserves.imm16.bind fun _ => Preserves.regs.bind fun _ =>
    .ite ((lowF_push _).bind fun _ => (lowF_setPc _).bind fun _ => .pure _)
      ((lowF_setPc _).bind fun _ => .pure _)
  | .ret _ => Preserves.regs.bind fun _ =>
    .ite (lowF_pop.bind fun _ => (lowF_setPc _).bind fun _ => .pure _) (.pure _)
  | .reti => lowF_pop.bind fun _ => (lowF_setPc _).bind fun _ => .pure _
  | .rst _ => Preserves.regs.bind fun _ => (lowF_push _).bind fun _ => (lowF_setPc _).bind fun _ => .pure _
  | .push _ => Preserves.regs.bind fun _ => (lowF_push _).bind fun _ => .pure _
  | .pop _ => lowF_pop.bind fun _ => (lowF_modifyRegs fun _ h => by exact h.set _ _).bind fun _ => .pure _
  | .cb => Preserves.imm8.bind fun _ => CbOp.run_preserves_lowClear _

namespace Console

/-- Executing an instruction keeps the nibble clear; the bookkeeping after it
leaves the registers alone but for PC. -/
theorem execute_preserves_lowClear : Preserves LowF (execute : Exec σ Nat) := by
  rw [execute_eq]
  refine Preserves.regs.bind fun _ => (Preserves.read _).bind fun _ => ?_
  have hcount : Preserves LowF
      (modify fun c : Console σ => { c with cpu := { c.cpu with executed := c.cpu.executed + 1 } }) :=
    Preserves.modify fun _ h => h
  have hfinish : ∀ e, Preserves LowF (finish e : Exec σ Nat) := fun _ _ h => h
  split
  · exact Preserves.of_final fun _ => rfl
  · rename_i i _
    refine (lowF_setPc _).bind fun _ => (Instr.run_preserves_lowClear i).bind fun e => ?_
    -- stepping PC past the operands, or not, shares the rest of the block
    dsimp only
    split
    · exact (lowF_modifyRegs fun _ h => by exact h).bind fun _ => hcount.bind fun _ =>
        (hfinish e).bind fun _ => .pure _
    · exact hcount.bind fun _ => (hfinish e).bind fun _ => .pure _

variable (hooks : Hooks σ)

theorem cpuAdvance_preserves_lowClear (asleep : Bool) : Preserves LowF (cpuAdvance hooks asleep) := by
  unfold cpuAdvance
  exact (Preserves.ite (.pure _) execute_preserves_lowClear).bind fun _ =>
    (Preserves.modify fun _ h => by exact h).bind fun _ => .pure _

theorem advance_preserves_lowClear (asleep : Bool) : Preserves LowF (advance hooks asleep) := by
  unfold advance
  exact (cpuAdvance_preserves_lowClear hooks asleep).bind fun _ =>
    (Preserves.modify fun _ h => by exact h).bind fun _ => (Preserves.modify fun _ h => by exact h).bind fun _ => .pure _

/-- A step that runs `rest`, woken or asleep, keeps the nibble clear if `rest`
does: waking changes only the control state. -/
theorem lowClear_stepWith {rest : Bool → Exec σ Nat} (hrest : ∀ asleep, Preserves LowF (rest asleep))
    {c : Console σ} (hc : c.regs.LowClear) : (stepWith rest c).console.regs.LowClear := by
  rw [stepWith_console]
  exact hrest _ _ hc

theorem lowClear_cpuStep {c : Console σ} (hc : c.regs.LowClear) : (cpuStep hooks c).console.regs.LowClear :=
  lowClear_stepWith (cpuAdvance_preserves_lowClear hooks) hc

theorem lowClear_step {c : Console σ} (hc : c.regs.LowClear) : (step hooks c).console.regs.LowClear :=
  lowClear_stepWith (advance_preserves_lowClear hooks) hc

/-- Any number of steps of the processor alone keep the nibble clear. -/
theorem lowClear_iterate_cpuStep (n : Nat) {c : Console σ} (hc : c.regs.LowClear) :
    ((fun c => (cpuStep hooks c).console)^[n] c).regs.LowClear :=
  Function.Iterate.rec (fun d : Console σ => d.regs.LowClear) hc (fun _ h => lowClear_cpuStep hooks h) n

/-- And so do any number of steps of the console. -/
theorem lowClear_iterate_step (n : Nat) {c : Console σ} (hc : c.regs.LowClear) :
    ((fun c => (step hooks c).console)^[n] c).regs.LowClear :=
  Function.Iterate.rec (fun d : Console σ => d.regs.LowClear) hc (fun _ h => lowClear_step hooks h) n

theorem lowClear_runFrom :
    ∀ (n : Nat) (c : Console σ) (trace : Array String) (acc : Nat), c.regs.LowClear →
      (runFrom hooks n c trace acc).console.regs.LowClear
  | 0, _, _, _, h => h
  | n + 1, c, trace, acc, h => by
    dsimp only [runFrom]
    split
    · exact lowClear_runFrom n _ _ _ (lowClear_step hooks h)
    · exact lowClear_step hooks h

/-- A reset, and with it a load, puts the power-on registers back. -/
theorem lowClear_reset (c : Console σ) : c.reset.regs.LowClear := Registers.lowClear_powerOn

/-- Every console a session reaches has F's low nibble clear. -/
theorem Reachable.lowClear {c : Console σ} (h : Reachable hooks c) : c.regs.LowClear := by
  induction h with
  | new cfg st => exact Registers.lowClear_powerOn
  | step _ ih => exact lowClear_step hooks ih
  | runFor n _ ih => exact lowClear_runFrom hooks n _ _ _ ih
  | reset _ ih => exact lowClear_reset _
  | loadRom rom _ hl ih =>
    obtain ⟨d, rfl⟩ := loadRom_eq_ok_reset hl
    exact lowClear_reset d
  | loadCartridge rom kind _ hl ih =>
    obtain ⟨d, rfl⟩ := loadCartridge_eq_ok_reset hl
    exact lowClear_reset d

end Console

end Steps

/-- **F's low nibble stays clear, and so does AF's.** Every register file
reached from power-on or from the cleared file by any sequence of the register
file's operations has it; every run of steps, of the processor alone or of the
console, from a console that has it, keeps it, whatever the program does
(`POP AF` of any word included); and every console a session reaches has it. -/
theorem flag_low_nibble_clear {σ : Type} (hooks : Hooks σ) :
    (∀ (ops : List RegOp) (r : Registers), (r = Registers.powerOn ∨ r = Registers.cleared) →
      (RegOp.run ops r).f &&& 0x0F = 0 ∧ (RegOp.run ops r).af &&& 0x000F = 0) ∧
    (∀ (c : Console σ) (n : Nat), c.regs.f &&& 0x0F = 0 →
      ((fun c => (Console.cpuStep hooks c).console)^[n] c).regs.f &&& 0x0F = 0 ∧
        ((fun c => (Console.cpuStep hooks c).console)^[n] c).regs.af &&& 0x000F = 0 ∧
        ((fun c => (Console.step hooks c).console)^[n] c).regs.f &&& 0x0F = 0 ∧
        ((fun c => (Console.step hooks c).console)^[n] c).regs.af &&& 0x000F = 0) ∧
    (∀ c : Console σ, Console.Reachable hooks c → c.regs.f &&& 0x0F = 0 ∧ c.regs.af &&& 0x000F = 0) := by
  refine ⟨fun ops r hr => ?_, fun c n hc => ?_, fun c hc => ?_⟩
  · have h : (RegOp.run ops r).LowClear := by
      rcases hr with rfl | rfl
      · exact RegOp.lowClear_run ops Registers.lowClear_powerOn
      · exact RegOp.lowClear_run ops Registers.lowClear_cleared
    exact ⟨h, h.af⟩
  · have hcpu := Console.lowClear_iterate_cpuStep hooks n hc
    have hstep := Console.lowClear_iterate_step hooks n hc
    exact ⟨hcpu, hcpu.af, hstep, hstep.af⟩
  · have h := hc.lowClear
    exact ⟨h, h.af⟩

/-- A console at power-on with `POP AF` at 0xC000 and SP at 0xDFF0. -/
def popAfAtStart : Console Unit :=
  { Console.new Config.standard () with
    regs := { Registers.powerOn with sp := 0xDFF0, pc := 0xC000 }
    bus := (Bus.new .dmg).writeByte 0xC000 0xF1 }

/-- Writing AF = 0xFFFF after power-on, popping AF on the processor alone, and
powering on keep the nibble clear. -/
theorem pop_af_keeps_low_nibble_clear :
    (RegOp.run [.setAf 0xFFFF] Registers.powerOn).f &&& 0x0F = 0 ∧
    ((fun c => (Console.cpuStep Hooks.none c).console)^[1] popAfAtStart).regs.f &&& 0x0F = 0 ∧
    (Console.new Config.standard ()).regs.af &&& 0x000F = 0 := by
  obtain ⟨hops, hrun, hreach⟩ := flag_low_nibble_clear (Hooks.none : Hooks Unit)
  exact ⟨(hops _ _ (.inl rfl)).1, (hrun popAfAtStart 1 (by decide)).1, (hreach _ (.new _ _)).2⟩

end Dmg
