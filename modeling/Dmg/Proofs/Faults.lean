import Dmg.Proofs.Table
/-!
# What a step can fail with

A step of an awake processor fails in exactly two ways. The opcode at PC is
one of the eleven holes, and the step fails with `Fault.unmappedOpcode`, PC
left on the opcode. Or the instruction makes a word access whose second byte
would lie past 0xFFFF (`Instr.WordAtTop`): its immediate word sits at 0xFFFF,
it pops with SP = 0xFFFF, it pushes with SP = 1, or it is `LD (a16),SP` with
a16 = 0xFFFF. That step fails with `Exec.topFault`, PC one past the opcode.
No other fault can come out of a step, of the console or of the processor
alone. In particular `Fault.malformedInstruction`, which the table's operand
accessors raise on a shape of operand their routine cannot use, never does:
every line of the table has the shapes its routine reads
(`descriptorOf_wellShaped`, checked over the whole table), and a well-shaped
line fails, if at all, with the word fault (`Descriptor.run_failsOnly`).

A failure is atomic: apart from PC, the failed step leaves the console as the
woken processor found it (`Console.step_failure_exact_and_atomic`). The
instruction level says why: every word access of an instruction comes before
its first write (`Instr.run_eq_error_iff`).

Each instruction that can make a word access has its own run lemma
(`Instr.run_call`, `Instr.run_pop`, ...), giving its whole outcome; the others
always finish (`Instr.run_ok_of_accessesWord`).

Key definitions: `Instr.popsWord`, `Instr.pushesWord`, `Instr.WordAtTop`,
`Instr.accessesWord`, `Exec.FailsOnly`, `Descriptor.wellShaped`.
Key theorems: `Instr.run_eq_error_iff`, `Descriptor.run_failsOnly`,
`descriptorOf_wellShaped`, `decode_eq_none_iff`, `Console.execute_eq_error_iff`,
`Console.step_eq_error_iff`, `Console.step_failure_exact_and_atomic`.
-/

namespace Dmg

/-- A CB-page operation always finishes. -/
theorem CbOp.run_ok {σ : Type} (o : CbOp) (c : Console σ) :
    ∃ e s, (o.run : Exec σ Effect).run c = .ok e s := by
  unfold CbOp.run
  cases o.op <;> simp

namespace Instr

/-- Whether the instruction pops a word when the flags are `f`: `POP`, `RETI`,
and `RET` when its condition holds. -/
def popsWord (f : Flags) : Instr → Bool
  | pop _ | reti => true
  | ret c => c.holds f
  | _ => false

/-- Whether the instruction pushes a word when the flags are `f`: `PUSH`,
`RST`, and `CALL` when its condition holds. -/
def pushesWord (f : Flags) : Instr → Bool
  | push _ | rst _ => true
  | call c => c.holds f
  | _ => false

/-- The instruction, run with registers `r` (PC on its first operand byte) over
`bus`, makes a word access at 0xFFFF: an immediate word at PC (whatever the
instruction then does with it), a pop at SP = 0xFFFF, a push to
SP - 2 = 0xFFFF, or the store of `LD (a16),SP` to a16 = 0xFFFF. -/
def WordAtTop (i : Instr) (r : Registers) (bus : Bus) : Prop :=
  (i.operandLen = 2 ∧ r.pc = 0xFFFF) ∨ (i.popsWord r.flags ∧ r.sp = 0xFFFF) ∨
    (i.pushesWord r.flags ∧ r.sp = 1) ∨ (i = storeSp ∧ bus.loadWord r.pc .little = 0xFFFF)

instance (i : Instr) (r : Registers) (bus : Bus) : Decidable (i.WordAtTop r bus) :=
  inferInstanceAs (Decidable (_ ∨ _))

/-- Whether running the instruction can make a word access at all: through its
immediate word, the stack, or the store of `LD (a16),SP`. -/
def accessesWord : Instr → Bool
  | ldPairImm _ | storeSp | loadA .absolute | storeA .absolute | jp _ | call _
  | ret _ | reti | push _ | pop _ | rst _ => true
  | _ => false

open Exec

variable {σ : Type} (c : Console σ)

/-! ### The instructions that access words -/

theorem run_ldPairImm (p : Pair) : ((ldPairImm p).run : Exec σ Effect).run c =
    if c.regs.pc = 0xFFFF then .error topFault c
    else .ok .done { c with regs := c.regs.set p.reg (c.bus.loadWord c.regs.pc .little) } := by
  simp only [Instr.run, EStateM.run_bind, run_imm16]
  split_ifs <;> rfl

theorem run_loadA_absolute : ((loadA .absolute).run : Exec σ Effect).run c =
    if c.regs.pc = 0xFFFF then .error topFault c
    else .ok .done
      { c with regs := { c.regs with a := c.bus.readByte (c.bus.loadWord c.regs.pc .little) } } := by
  simp only [Instr.run, address, EStateM.run_bind, run_imm16]
  split_ifs <;> rfl

theorem run_storeA_absolute : ((storeA .absolute).run : Exec σ Effect).run c =
    if c.regs.pc = 0xFFFF then .error topFault c
    else .ok .done { c with bus := c.bus.writeByte (c.bus.loadWord c.regs.pc .little) c.regs.a } := by
  simp only [Instr.run, address, EStateM.run_bind, run_regs, run_imm16]
  split_ifs <;> rfl

/-- `LD (a16),SP` reads its target first and fails on either word access. -/
theorem run_storeSp : (storeSp.run : Exec σ Effect).run c =
    if c.regs.pc = 0xFFFF ∨ c.bus.loadWord c.regs.pc .little = 0xFFFF then .error topFault c
    else .ok .done
      { c with bus := c.bus.storeWord (c.bus.loadWord c.regs.pc .little) c.regs.sp .little } := by
  simp only [Instr.run, EStateM.run_bind, run_imm16, run_regs, run_writeWord]
  split_ifs <;> simp_all

/-- A conditional jump reads its target whether or not it jumps. -/
theorem run_jp (cnd : Cond) : ((jp cnd).run : Exec σ Effect).run c =
    if c.regs.pc = 0xFFFF then .error topFault c
    else if cnd.holds c.regs.flags then
      .ok (taken cnd 4) { c with regs := { c.regs with pc := c.bus.loadWord c.regs.pc .little } }
    else .ok .done { c with regs := { c.regs with pc := c.regs.pc + 2 } } := by
  by_cases h : c.regs.pc = 0xFFFF
  · simp only [Instr.run, EStateM.run_bind, run_imm16, h, if_true]
  · simp only [Instr.run, EStateM.run_bind, run_imm16, run_regs, h, if_false]
    split_ifs <;> rfl

/-- A call reads its target first, and pushes the return address only when
its condition holds. -/
theorem run_call (cnd : Cond) : ((call cnd).run : Exec σ Effect).run c =
    if c.regs.pc = 0xFFFF then .error topFault c
    else if cnd.holds c.regs.flags then
      if c.regs.sp = 1 then .error topFault c
      else .ok (taken cnd 12)
        { c with bus := c.bus.storeWord (c.regs.sp - 2) (c.regs.pc + 2) .little,
                 regs := { c.regs with sp := c.regs.sp - 2, pc := c.bus.loadWord c.regs.pc .little } }
    else .ok .done { c with regs := { c.regs with pc := c.regs.pc + 2 } } := by
  by_cases h : c.regs.pc = 0xFFFF
  · simp only [Instr.run, EStateM.run_bind, run_imm16, h, if_true]
  · simp only [Instr.run, EStateM.run_bind, run_imm16, run_regs, h, if_false]
    split_ifs with hc hsp
    · simp only [EStateM.run_bind, Exec.run_push, hsp, if_true]
    · simp only [EStateM.run_bind, Exec.run_push, hsp, if_false]
      rfl
    · rfl

theorem run_ret (cnd : Cond) : ((ret cnd).run : Exec σ Effect).run c =
    if cnd.holds c.regs.flags then
      if c.regs.sp = 0xFFFF then .error topFault c
      else .ok (taken cnd 12)
        { c with regs := { c.regs with sp := c.regs.sp + 2, pc := c.bus.loadWord c.regs.sp .little } }
    else .ok .done c := by
  simp only [Instr.run, EStateM.run_bind, run_regs]
  split_ifs with hc hsp
  · simp only [EStateM.run_bind, Exec.run_pop, hsp, if_true]
  · simp only [EStateM.run_bind, Exec.run_pop, hsp, if_false]
    rfl
  · rfl

theorem run_reti : (reti.run : Exec σ Effect).run c =
    if c.regs.sp = 0xFFFF then .error topFault c
    else .ok .enableNow
      { c with regs := { c.regs with sp := c.regs.sp + 2, pc := c.bus.loadWord c.regs.sp .little } } := by
  simp only [Instr.run, EStateM.run_bind, Exec.run_pop]
  split_ifs <;> rfl

theorem run_pop (p : StackPair) : ((pop p).run : Exec σ Effect).run c =
    if c.regs.sp = 0xFFFF then .error topFault c
    else .ok .done
      { c with regs := { c.regs with sp := c.regs.sp + 2 }.set p.reg (c.bus.loadWord c.regs.sp .little) } := by
  simp only [Instr.run, EStateM.run_bind, Exec.run_pop]
  split_ifs <;> rfl

theorem run_push (p : StackPair) : ((push p).run : Exec σ Effect).run c =
    if c.regs.sp = 1 then .error topFault c
    else .ok .done { c with bus := c.bus.storeWord (c.regs.sp - 2) (c.regs.get p.reg) .little,
                            regs := { c.regs with sp := c.regs.sp - 2 } } := by
  simp only [Instr.run, EStateM.run_bind, run_regs, Exec.run_push]
  split_ifs <;> rfl

theorem run_rst (n : Fin 8) : ((rst n).run : Exec σ Effect).run c =
    if c.regs.sp = 1 then .error topFault c
    else .ok .done
      { c with bus := c.bus.storeWord (c.regs.sp - 2) c.regs.pc .little,
               regs := { c.regs with sp := c.regs.sp - 2, pc := UInt16.ofNat (n.val * 8) } } := by
  simp only [Instr.run, EStateM.run_bind, run_regs, Exec.run_push]
  split_ifs <;> rfl

/-! ### The others always finish -/

theorem run_ok_of_accessesWord {i : Instr} (h : i.accessesWord = false) :
    ∃ e s, (i.run : Exec σ Effect).run c = .ok e s := by
  cases i with
  | cb =>
    obtain ⟨e, s, h⟩ := CbOp.run_ok (CbOp.decode (c.bus.readByte c.regs.pc)) c
    simp [Instr.run, h]
  | jr cnd => cases hc : cnd.holds c.regs.flags <;> simp [Instr.run, hc]
  | inc o | dec o => cases o <;> simp [Instr.run]
  | loadA ind | storeA ind => cases ind <;> simp_all [Instr.run, address, accessesWord]
  | _ => simp_all [Instr.run, accessesWord]

theorem not_wordAtTop {i : Instr} (h : i.accessesWord = false) (r : Registers) (bus : Bus) :
    ¬ i.WordAtTop r bus := by
  cases i with
  | loadA ind | storeA ind =>
    cases ind <;> simp_all [WordAtTop, accessesWord, operandLen, popsWord, pushesWord]
  | _ => simp_all [WordAtTop, accessesWord, operandLen, popsWord, pushesWord]

theorem run_ne_error {i : Instr} (h : i.accessesWord = false) (f : Fault) (s : Console σ) :
    (i.run : Exec σ Effect).run c ≠ .error f s := by
  obtain ⟨e, s', h⟩ := run_ok_of_accessesWord c h
  simp [h]

/-- An instruction fails exactly when it makes a word access at 0xFFFF, and
then with the word fault and the console untouched. -/
theorem run_eq_error_iff (i : Instr) (f : Fault) (s : Console σ) :
    (i.run : Exec σ Effect).run c = .error f s ↔
      i.WordAtTop c.regs c.bus ∧ topFault = f ∧ c = s := by
  cases i with
  | ldPairImm p =>
    rw [run_ldPairImm]
    split_ifs <;> simp [WordAtTop, operandLen, popsWord, pushesWord, *]
  | storeSp =>
    rw [run_storeSp]
    split_ifs <;> simp [WordAtTop, operandLen, popsWord, pushesWord, *]
  | jp cnd =>
    rw [run_jp]
    split_ifs <;> simp [WordAtTop, operandLen, popsWord, pushesWord, *]
  | call cnd =>
    rw [run_call]
    split_ifs <;> simp [WordAtTop, operandLen, popsWord, pushesWord, *]
  | ret cnd =>
    rw [run_ret]
    split_ifs <;> simp [WordAtTop, operandLen, popsWord, pushesWord, *]
  | reti =>
    rw [run_reti]
    split_ifs <;> simp [WordAtTop, operandLen, popsWord, pushesWord, *]
  | pop p =>
    rw [run_pop]
    split_ifs <;> simp [WordAtTop, operandLen, popsWord, pushesWord, *]
  | push p =>
    rw [run_push]
    split_ifs <;> simp [WordAtTop, operandLen, popsWord, pushesWord, *]
  | rst n =>
    rw [run_rst]
    split_ifs <;> simp [WordAtTop, operandLen, popsWord, pushesWord, *]
  | loadA ind =>
    cases ind with
    | absolute =>
      rw [run_loadA_absolute]
      split_ifs <;> simp [WordAtTop, operandLen, popsWord, pushesWord, *]
    | bc | de | hlInc | hlDec | high | highC =>
      exact iff_of_false (run_ne_error c rfl f s) fun h => not_wordAtTop rfl _ _ h.1
  | storeA ind =>
    cases ind with
    | absolute =>
      rw [run_storeA_absolute]
      split_ifs <;> simp [WordAtTop, operandLen, popsWord, pushesWord, *]
    | bc | de | hlInc | hlDec | high | highC =>
      exact iff_of_false (run_ne_error c rfl f s) fun h => not_wordAtTop rfl _ _ h.1
  | _ => exact iff_of_false (run_ne_error c rfl f s) fun h => not_wordAtTop rfl _ _ h.1

end Instr

/-! ### Malformed lines

The routines of the opcode table read their operands through accessors that
fail with `Fault.malformedInstruction` on a shape of operand they cannot use.
A line whose operands have the shapes its routine reads
(`Descriptor.wellShaped`) can fail only with the word fault, and every line of
the table is well shaped: the check runs over the whole table. -/

namespace Exec

variable {σ α β : Type} {p : Fault → Prop}

/-- The action fails, if at all, with a fault that satisfies `p`. -/
def FailsOnly (p : Fault → Prop) (x : Exec σ α) : Prop := ∀ c f s, x.run c = .error f s → p f

namespace FailsOnly

theorem of_ok {x : Exec σ α} (h : ∀ c, ∃ a s, x.run c = .ok a s) : FailsOnly p x := by
  intro c f s hx
  obtain ⟨a, s', h'⟩ := h c
  rw [h'] at hx
  cases hx

theorem mono {q : Fault → Prop} {x : Exec σ α} (hx : FailsOnly p x) (h : ∀ f, p f → q f) :
    FailsOnly q x :=
  fun c f s hf => h f (hx c f s hf)

protected theorem pure (a : α) : FailsOnly p (pure a : Exec σ α) := of_ok fun c => ⟨a, c, rfl⟩

protected theorem throw {f : Fault} (h : p f) : FailsOnly p (throw f : Exec σ α) := by
  intro c f' s hf
  cases hf
  exact h

theorem throw_bind {f : Fault} {g : α → Exec σ β} (h : p f) : FailsOnly p (throw f >>= g) := by
  intro c f' s hf
  cases hf
  exact h

protected theorem bind {x : Exec σ α} {g : α → Exec σ β} (hx : FailsOnly p x)
    (hg : ∀ a, FailsOnly p (g a)) : FailsOnly p (x >>= g) := by
  intro c f s h
  cases hr : x.run c with
  | ok a s' => exact hg a s' f s (by rwa [run_bind_ok hr] at h)
  | error f' s' =>
    rw [run_bind_error hr] at h
    cases h
    exact hx c _ _ hr

theorem regs : FailsOnly p (regs : Exec σ Registers) := of_ok fun _ => ⟨_, _, rfl⟩

theorem modifyRegs (g : Registers → Registers) : FailsOnly p (modifyRegs g : Exec σ Unit) :=
  of_ok fun _ => ⟨_, _, rfl⟩

theorem modify (g : Console σ → Console σ) : FailsOnly p (modify g : Exec σ PUnit) :=
  of_ok fun _ => ⟨_, _, rfl⟩

theorem read (a : UInt16) : FailsOnly p (read a : Exec σ UInt8) := of_ok fun _ => ⟨_, _, rfl⟩

theorem write (a : UInt16) (v : UInt8) : FailsOnly p (write a v : Exec σ Unit) := of_ok fun _ => ⟨_, _, rfl⟩

theorem imm8 : FailsOnly p (imm8 : Exec σ UInt8) := of_ok fun _ => ⟨_, _, rfl⟩

theorem readWord (a : UInt16) : FailsOnly (· = topFault) (readWord a : Exec σ UInt16) := by
  intro c f s h
  rw [run_readWord] at h
  split_ifs at h
  cases h
  rfl

theorem writeWord (a v : UInt16) : FailsOnly (· = topFault) (writeWord a v : Exec σ Unit) := by
  intro c f s h
  rw [run_writeWord] at h
  split_ifs at h
  cases h
  rfl

theorem imm16 : FailsOnly (· = topFault) (imm16 : Exec σ UInt16) := regs.bind fun _ => readWord _

theorem push (v : UInt16) : FailsOnly (· = topFault) (push v : Exec σ Unit) :=
  regs.bind fun _ => (writeWord _ _).bind fun _ => modifyRegs _

theorem pop : FailsOnly (· = topFault) (pop : Exec σ UInt16) :=
  regs.bind fun _ => (readWord _).bind fun _ => (modifyRegs _).bind fun _ => .pure _

end FailsOnly

end Exec

open Exec

/-- An instruction fails, if at all, with the word fault. -/
theorem Instr.run_failsOnly {σ : Type} (i : Instr) : FailsOnly (· = topFault) (i.run : Exec σ Effect) :=
  fun c f s h => ((Instr.run_eq_error_iff c i f s).1 h).2.1.symm

namespace Operand

/-- A byte source `Descriptor.read8` takes: a byte register, the immediate
byte, or a memory operand. -/
def isByteSource : Operand → Bool
  | reg r => !r.isWide
  | imm8 => true
  | o => o.isMemory

/-- A byte target `Descriptor.write8` takes: a byte register or a memory
operand. -/
def isByteTarget : Operand → Bool
  | reg r => !r.isWide
  | o => o.isMemory

/-- A word source `Descriptor.read16` takes: a wide register or the immediate
word. -/
def isWordSource : Operand → Bool
  | reg r => r.isWide
  | imm16 => true
  | _ => false

/-- A wide register, as `Descriptor.wideReg` takes it. -/
def isWideReg : Operand → Bool
  | reg r => r.isWide
  | _ => false

end Operand

namespace Descriptor

/-- Whether the line's operands have the shapes its routine reads them in. -/
def wellShaped (d : Descriptor) : Bool :=
  match d.handler with
  | .ld8 => d.src.isByteSource && d.dst.isByteTarget
  | .ld16 => d.src.isWordSource && d.dst.isWideReg
  | .inc8 | .dec8 =>
    match d.dst with
    | .reg _ => true
    | o => o.isByteSource && o.isByteTarget
  | .inc16 | .dec16 | .pop => d.dst.isWideReg
  | .alu _ => d.src.isByteSource
  | .addHl | .jpHl | .push => d.src.isWordSource
  | .rst => d.src.vector?.isSome
  | _ => true

variable {σ : Type} (d : Descriptor)

theorem address_failsOnly {o : Operand} (h : o.isMemory = true) :
    FailsOnly (· = topFault) (d.address o : Exec σ UInt16) := by
  cases o with
  | mem r | highReg r => exact FailsOnly.regs.bind fun _ => .pure _
  | memInc r | memDec r => exact FailsOnly.regs.bind fun _ => (FailsOnly.modifyRegs _).bind fun _ => .pure _
  | memImm16 => exact FailsOnly.imm16
  | highImm8 => exact FailsOnly.imm8.bind fun _ => .pure _
  | implied | reg _ | imm8 | imm16 | vector _ => cases h

theorem read8_failsOnly {o : Operand} (h : o.isByteSource = true) :
    FailsOnly (· = topFault) (d.read8 o : Exec σ UInt8) := by
  cases o with
  | reg r =>
    simp only [Operand.isByteSource, Bool.not_eq_eq_eq_not, Bool.not_true] at h
    simp only [read8, h, Bool.false_eq_true, ↓reduceIte]
    exact FailsOnly.regs.bind fun _ => .pure _
  | imm8 => exact FailsOnly.imm8
  | implied | imm16 | vector _ => cases h
  | mem r | memInc r | memDec r | memImm16 | highImm8 | highReg r =>
    refine (d.address_failsOnly ?_).bind fun _ => FailsOnly.read _
    exact h

theorem write8_failsOnly {o : Operand} (h : o.isByteTarget = true) (v : UInt8) :
    FailsOnly (· = topFault) (d.write8 o v : Exec σ Unit) := by
  cases o with
  | reg r =>
    simp only [Operand.isByteTarget, Bool.not_eq_eq_eq_not, Bool.not_true] at h
    simp only [write8, h, Bool.false_eq_true, ↓reduceIte]
    exact FailsOnly.modifyRegs _
  | implied | imm8 | imm16 | vector _ => cases h
  | mem r | memInc r | memDec r | memImm16 | highImm8 | highReg r =>
    refine (d.address_failsOnly ?_).bind fun _ => FailsOnly.write _ _
    exact h

theorem read16_failsOnly {o : Operand} (h : o.isWordSource = true) :
    FailsOnly (· = topFault) (d.read16 o : Exec σ UInt16) := by
  cases o with
  | reg r =>
    simp only [Operand.isWordSource] at h
    simp only [read16, h, ↓reduceIte]
    exact FailsOnly.regs.bind fun _ => .pure _
  | imm16 => exact FailsOnly.imm16
  | _ => cases h

theorem wideReg_failsOnly {o : Operand} (h : o.isWideReg = true) :
    FailsOnly (· = topFault) (d.wideReg o : Exec σ Reg) := by
  cases o with
  | reg r =>
    simp only [Operand.isWideReg] at h
    simp only [wideReg, h, ↓reduceIte]
    exact FailsOnly.pure _
  | _ => cases h

/-- **A well-shaped line never meets a malformed operand.** Its routine fails,
if at all, with the word fault. -/
theorem run_failsOnly (h : d.wellShaped = true) : FailsOnly (· = topFault) (d.run : Exec σ Effect) := by
  obtain ⟨mnemonic, cycles, len, dst, src, cond, jumps, implemented, handler⟩ := d
  -- each routine that takes operands meets the shapes the line promises; the
  -- others are instructions' own
  cases handler <;> simp only [wellShaped, Bool.and_eq_true] at h <;> simp only [run]
  case ld8 => exact (read8_failsOnly _ h.1).bind fun _ => (write8_failsOnly _ h.2 _).bind fun _ => .pure _
  case ld16 =>
    exact (read16_failsOnly _ h.1).bind fun _ => (wideReg_failsOnly _ h.2).bind fun _ =>
      (FailsOnly.modifyRegs _).bind fun _ => .pure _
  case inc8 | dec8 =>
    cases dst with
    | reg r => exact (FailsOnly.modifyRegs _).bind fun _ => .pure _
    | _ =>
      simp only [Bool.and_eq_true] at h
      exact (read8_failsOnly _ h.1).bind fun _ => (FailsOnly.modifyRegs _).bind fun _ =>
        (write8_failsOnly _ h.2 _).bind fun _ => .pure _
  case inc16 | dec16 => exact (wideReg_failsOnly _ h).bind fun _ => (FailsOnly.modifyRegs _).bind fun _ => .pure _
  case alu => exact (read8_failsOnly _ h).bind fun _ => (FailsOnly.modifyRegs _).bind fun _ => .pure _
  case addHl => exact (read16_failsOnly _ h).bind fun _ => (FailsOnly.modifyRegs _).bind fun _ => .pure _
  case jpHl => exact (read16_failsOnly _ h).bind fun _ => (FailsOnly.modifyRegs _).bind fun _ => .pure _
  case rst =>
    cases src with
    | vector v =>
      exact FailsOnly.regs.bind fun _ => (FailsOnly.push _).bind fun _ =>
        (FailsOnly.modifyRegs _).bind fun _ => .pure _
    | _ => cases h
  case push => exact (read16_failsOnly _ h).bind fun _ => (FailsOnly.push _).bind fun _ => .pure _
  case pop =>
    exact (wideReg_failsOnly _ h).bind fun _ => FailsOnly.pop.bind fun _ =>
      (FailsOnly.modifyRegs _).bind fun _ => .pure _
  case prefixCb =>
    refine FailsOnly.imm8.bind fun b => ?_
    rw [runCb_eq]
    exact FailsOnly.of_ok (CbOp.run_ok _)
  all_goals exact Instr.run_failsOnly _

end Descriptor

/-- **Every line of the opcode table is well shaped.** -/
theorem descriptorOf_wellShaped : ∀ op : UInt8, (descriptorOf op).wellShaped = true := by
  rw [forall_uint8]
  decide +kernel

/-! ### Holes -/

/-- The opcodes with no instruction are exactly the eleven holes. -/
theorem decode_eq_none_iff (op : UInt8) : decode op = none ↔ op ∈ holes := by
  revert op
  rw [forall_uint8]
  decide +kernel

/-! ### Steps -/

theorem Cpu.wake_of_awake {cpu : Cpu} {bus : Bus} (h : (cpu.wake bus).2 = false) :
    cpu.wake bus = ({ cpu with halted := false, stopped := false }, false) := by
  obtain ⟨halted, stopped, delay, trace, executed⟩ := cpu
  -- the outcome turns on the two flags and on the two interrupt tests
  by_cases hp : pendingSet bus &&& Source.joypad.mask = 0 <;> by_cases ha : activeSet bus = 0 <;>
    cases stopped <;> cases halted <;> simp [Cpu.wake, hp, ha] at h ⊢

namespace Console

open Exec

variable {σ : Type}

@[simp] theorem run_finish (e : Effect) (c : Console σ) :
    (finish e : Exec σ Nat).run c =
      .ok (c.cpu.complete c.interrupts.ime e).2.2
        { c with cpu := (c.cpu.complete c.interrupts.ime e).1,
                 interrupts := c.interrupts.setIme (c.cpu.complete c.interrupts.ime e).2.1 } := rfl

/-- Executing fails only on a hole or with the word fault, never on a
malformed line: every line of the table is well shaped. -/
theorem execute_failsOnly :
    FailsOnly (fun f => (∃ op pc, f = .unmappedOpcode op pc) ∨ f = topFault) (execute : Exec σ Nat) := by
  unfold execute
  refine FailsOnly.regs.bind fun _ => (FailsOnly.read _).bind fun op => ?_
  have hrun : FailsOnly (fun f => (∃ op pc, f = .unmappedOpcode op pc) ∨ f = topFault)
      ((descriptorOf op).run : Exec σ Effect) :=
    ((descriptorOf op).run_failsOnly (descriptorOf_wellShaped op)).mono fun _ => .inr
  have hfinish : ∀ e, FailsOnly (fun f => (∃ op pc, f = .unmappedOpcode op pc) ∨ f = topFault)
      (finish e : Exec σ Nat) :=
    fun _ => FailsOnly.of_ok fun _ => ⟨_, _, rfl⟩
  dsimp only
  -- a hole, or the line's routine followed by the bookkeeping, which cannot fail
  split
  · exact FailsOnly.throw_bind (.inl ⟨_, _, rfl⟩)
  · refine (FailsOnly.modifyRegs _).bind fun _ => hrun.bind fun e => ?_
    split
    · exact (FailsOnly.modifyRegs _).bind fun _ => (FailsOnly.modify _).bind fun _ =>
        (hfinish e).bind fun _ => .pure _
    · exact (FailsOnly.modify _).bind fun _ => (hfinish e).bind fun _ => .pure _

/-- Executing fails on a hole, with PC on the opcode, or on an instruction's
word access at 0xFFFF, with PC one past the opcode; nothing else changes. -/
theorem execute_eq_error_iff (c : Console σ) (f : Fault) (s : Console σ) :
    (execute : Exec σ Nat).run c = .error f s ↔
      (decode (c.bus.readByte c.regs.pc) = none ∧
        f = .unmappedOpcode (c.bus.readByte c.regs.pc) c.regs.pc ∧ s = c) ∨
      ∃ i, decode (c.bus.readByte c.regs.pc) = some i ∧
        i.WordAtTop { c.regs with pc := c.regs.pc + 1 } c.bus ∧ f = topFault ∧
        s = { c with regs := { c.regs with pc := c.regs.pc + 1 } } := by
  rw [execute_eq]
  simp only [EStateM.run_bind, run_regs, run_read]
  cases hd : decode (c.bus.readByte c.regs.pc) with
  | none => simp [eq_comm]
  | some i =>
    simp only [EStateM.run_bind, run_setPc]
    cases hr : (i.run : Exec σ Effect).run { c with regs := { c.regs with pc := c.regs.pc + 1 } } with
    | ok e s' =>
      -- the instruction finished, and the bookkeeping after it cannot fail
      refine iff_of_false ?_ ?_
      · cases i.jumps <;> simp
      · rintro (⟨h, -⟩ | ⟨i', h, hw, -⟩)
        · cases h
        · obtain rfl := Option.some.inj h
          simp [(Instr.run_eq_error_iff { c with regs := { c.regs with pc := c.regs.pc + 1 } } i
            topFault _).2 ⟨hw, rfl, rfl⟩] at hr
    | error f' s' =>
      obtain ⟨hw, rfl, rfl⟩ := (Instr.run_eq_error_iff _ i f' s').1 hr
      simp [hw, eq_comm]

/-- The processor's part of an awake step fails exactly when its instruction
does, and with the console the instruction left. -/
theorem cpuAdvance_awake_eq_error_iff (hooks : Hooks σ) (c : Console σ) (f : Fault) (s : Console σ) :
    (cpuAdvance hooks false).run c = .error f s ↔ (execute : Exec σ Nat).run c = .error f s := by
  simp only [cpuAdvance, Bool.false_eq_true, if_false, EStateM.run_bind]
  cases (execute : Exec σ Nat).run c <;> simp

/-- The rest of an awake step fails exactly when its instruction does: the
PPU and the cycle count come after. -/
theorem advance_awake_eq_error_iff (hooks : Hooks σ) (c : Console σ) (f : Fault) (s : Console σ) :
    (advance hooks false).run c = .error f s ↔ (execute : Exec σ Nat).run c = .error f s := by
  rw [← cpuAdvance_awake_eq_error_iff hooks]
  simp only [advance, EStateM.run_bind]
  cases (cpuAdvance hooks false).run c <;> simp

/-- A step of an awake processor that runs `rest` fails exactly when `rest`
fails on the woken console, and it stops where `rest` stopped. -/
theorem stepWith_eq_error_iff {rest : Bool → Exec σ Nat} {c : Console σ}
    (hawake : (c.cpu.wake c.bus).2 = false) (f : Fault) (s : Console σ) :
    ((stepWith rest c).result = .error f ∧ (stepWith rest c).console = s) ↔
      (rest false).run { c with cpu := { c.cpu with halted := false, stopped := false } } = .error f s := by
  unfold stepWith
  rw [Cpu.wake_of_awake hawake]
  dsimp only
  cases (rest false).run { c with cpu := { c.cpu with halted := false, stopped := false } } <;> simp

/-- A step of an awake processor fails exactly when executing on the woken
console fails, and it stops where executing stopped. -/
theorem step_eq_error_iff (hooks : Hooks σ) {c : Console σ} (hawake : (c.cpu.wake c.bus).2 = false)
    (f : Fault) (s : Console σ) :
    ((step hooks c).result = .error f ∧ (step hooks c).console = s) ↔
      (execute : Exec σ Nat).run { c with cpu := { c.cpu with halted := false, stopped := false } } =
        .error f s :=
  (stepWith_eq_error_iff hawake f s).trans (advance_awake_eq_error_iff hooks _ f s)

/-- The same for a step of the processor alone. -/
theorem cpuStep_eq_error_iff (hooks : Hooks σ) {c : Console σ} (hawake : (c.cpu.wake c.bus).2 = false)
    (f : Fault) (s : Console σ) :
    ((cpuStep hooks c).result = .error f ∧ (cpuStep hooks c).console = s) ↔
      (execute : Exec σ Nat).run { c with cpu := { c.cpu with halted := false, stopped := false } } =
        .error f s :=
  (stepWith_eq_error_iff hawake f s).trans (cpuAdvance_awake_eq_error_iff hooks _ f s)

/-- A step of an awake processor, of the console or of the processor alone,
fails exactly on a hole, with `UnmappedOpcode`, or on a word access at 0xFFFF,
with `AddressOutOfRange 0xFFFF 2`; never with `MalformedInstruction`; and a
failed step changes nothing but PC (left on a hole's opcode, one past any
other) and the cleared halt and stop flags. -/
theorem step_failure_exact_and_atomic (hooks : Hooks σ) (st : Console σ → Run σ)
    (hst : st = step hooks ∨ st = cpuStep hooks) (c : Console σ)
    (hawake : (c.cpu.wake c.bus).2 = false) :
    (∀ f, (st c).result = .error f ↔
      (c.bus.readByte c.regs.pc ∈ holes ∧ f = .unmappedOpcode (c.bus.readByte c.regs.pc) c.regs.pc) ∨
      ∃ i, decode (c.bus.readByte c.regs.pc) = some i ∧
        i.WordAtTop { c.regs with pc := c.regs.pc + 1 } c.bus ∧ f = .addressOutOfRange 0xFFFF 2) ∧
    (∀ f, (st c).result = .error f → ∀ m, f ≠ .malformedInstruction m) ∧
    (∀ f, (st c).result = .error f →
      (st c).console =
        { c with
          cpu := { c.cpu with halted := false, stopped := false }
          regs := { c.regs with
            pc := if c.bus.readByte c.regs.pc ∈ holes then c.regs.pc else c.regs.pc + 1 } }) := by
  have hrun : ∀ f s, ((st c).result = .error f ∧ (st c).console = s) ↔
      (execute : Exec σ Nat).run { c with cpu := { c.cpu with halted := false, stopped := false } } =
        .error f s := by
    rcases hst with rfl | rfl
    · exact step_eq_error_iff hooks hawake
    · exact cpuStep_eq_error_iff hooks hawake
  have key := fun f s => (hrun f s).trans (execute_eq_error_iff _ f s)
  simp only [← decode_eq_none_iff] at key ⊢
  refine ⟨fun f => ⟨fun h => ?_, fun h => ?_⟩, fun f h m hm => ?_, fun f h => ?_⟩
  · rcases (key f _).1 ⟨h, rfl⟩ with ⟨hd, hf, -⟩ | ⟨i, hd, hw, hf, -⟩
    · exact .inl ⟨hd, hf⟩
    · exact .inr ⟨i, hd, hw, hf⟩
  · rcases h with ⟨hd, hf⟩ | ⟨i, hd, hw, hf⟩
    · exact ((key f _).2 (.inl ⟨hd, hf, rfl⟩)).1
    · exact ((key f _).2 (.inr ⟨i, hd, hw, hf, rfl⟩)).1
  · -- the table's routines never meet a malformed operand
    subst hm
    rcases execute_failsOnly _ _ _ ((hrun _ _).1 ⟨h, rfl⟩) with ⟨op, pc, h'⟩ | h'
    · cases h'
    · cases h'
  · -- the console is the one executing stopped on, with PC where the fault left it
    rcases (key f _).1 ⟨h, rfl⟩ with ⟨hd, -, hs⟩ | ⟨i, hd, -, -, hs⟩
    · simp [hs, hd]
    · simp [hs, hd]

/-- A console at power-on with `PUSH BC` at 0xC000, PC on it and SP = 1. -/
def pushAtStackBottom : Console Unit :=
  { Console.new Config.standard () with
    regs := { Registers.powerOn with sp := 1, pc := 0xC000 }
    bus := (Bus.new .dmg).writeByte 0xC000 0xC5 }

/-- `PUSH BC` with SP = 1 fails with the word fault, and the step moves only
PC, past the opcode. -/
theorem push_at_stack_bottom_fails :
    (pushAtStackBottom.cpu.wake pushAtStackBottom.bus).2 = false ∧
    (step Hooks.none pushAtStackBottom).result = .error (.addressOutOfRange 0xFFFF 2) ∧
    (step Hooks.none pushAtStackBottom).console =
      { pushAtStackBottom with regs := { pushAtStackBottom.regs with pc := 0xC001 } } := by
  have hbus : pushAtStackBottom.bus = (Bus.new .dmg).writeByte 0xC000 0xC5 := rfl
  have hpc : pushAtStackBottom.regs.pc = 0xC000 := rfl
  have hop : pushAtStackBottom.bus.readByte 0xC000 = 0xC5 := by
    rw [hbus]
    exact Bus.readByte_writeByte_self _ _ (by decide)
  have hd : decode 0xC5 = some (.push .bc) := rfl
  have hw : (Instr.push .bc).WordAtTop { pushAtStackBottom.regs with pc := 0xC001 }
      pushAtStackBottom.bus :=
    .inr (.inr (.inl ⟨rfl, rfl⟩))
  obtain ⟨hres, -, hcon⟩ := step_failure_exact_and_atomic Hooks.none _ (.inl rfl) pushAtStackBottom rfl
  have hr := (hres _).2 (.inr ⟨_, by rw [hpc, hop]; exact hd, hw, rfl⟩)
  refine ⟨rfl, hr, (hcon _ hr).trans ?_⟩
  have hn : (0xC5 : UInt8) ∉ holes := by decide
  simp only [hpc, hop, hn, if_false]
  rfl

end Console
end Dmg
