import Dmg.Proofs.Faults
/-!
# What an instruction leaves alone

An instruction works on the registers and the bus. The processor's control
state (halted, stopped, the EI delay, the count of instructions executed) and
the interrupt controller come out of `Instr.run` as they went in, whether the
instruction finishes or fails (`Instr.run_keeps_control`): they change only in
the engine's bookkeeping after it. An instruction that does not jump leaves PC
alone as well (`Instr.run_keeps_pc`): it reads its operands at PC without
moving it, and the engine steps over them afterwards.

Both are instances of one frame property. `Exec.Keeps v x` says that whatever
`x` does, the view `v` of the console is as it was; binding keeps it. A view
that ignores byte writes and every change of registers that leaves PC where
it is is kept by every instruction that does not jump
(`Instr.run_keeps_of_jumps_false`), the proof for each having the shape of
its action.

Key definitions: `Exec.Keeps`.
Key theorems: `Exec.Keeps.bind`, `Instr.run_keeps_of_jumps_false`,
`Instr.run_keeps_pc`, `Instr.run_keeps_of_regs_bus`, `Instr.run_keeps_control`.
-/

namespace Dmg

/-! ### Register updates that leave PC where it is -/

namespace Registers

@[simp] theorem pc_write8 (r : Registers) (q : R8) (v : UInt8) : (r.write8 q v).pc = r.pc := by
  cases q <;> rfl

@[simp] theorem pc_set_pair (r : Registers) (q : Pair) (v : UInt16) : (r.set q.reg v).pc = r.pc := by
  cases q <;> rfl

@[simp] theorem pc_set_stackPair (r : Registers) (q : StackPair) (v : UInt16) :
    (r.set q.reg v).pc = r.pc := by
  cases q <;> rfl

@[simp] theorem pc_inc_r8 (r : Registers) (q : R8) : (r.inc q.reg).pc = r.pc := by
  cases q <;> rfl

@[simp] theorem pc_dec_r8 (r : Registers) (q : R8) : (r.dec q.reg).pc = r.pc := by
  cases q <;> rfl

@[simp] theorem pc_inc_pair (r : Registers) (q : Pair) : (r.inc q.reg).pc = r.pc := by
  cases q <;> rfl

@[simp] theorem pc_dec_pair (r : Registers) (q : Pair) : (r.dec q.reg).pc = r.pc := by
  cases q <;> rfl

@[simp] theorem pc_accumulate (r : Registers) (op : AluOp) (v : UInt8) : (r.accumulate op v).pc = r.pc := by
  cases op <;> rfl

end Registers

namespace Exec

variable {σ α β γ : Type}

/-- Whatever `x` does, finished or failed, the view `v` of the console is as
it was. -/
def Keeps (v : Console σ → γ) (x : Exec σ α) : Prop := ∀ c, v (final x c) = v c

namespace Keeps

variable {v : Console σ → γ}

/-- An action that leaves the console as it found it keeps every view. -/
theorem of_final {x : Exec σ α} (h : ∀ c, final x c = c) : Keeps v x := fun c => by rw [h c]

protected theorem pure (a : α) : Keeps v (pure a : Exec σ α) := of_final fun _ => rfl

protected theorem bind {x : Exec σ α} {f : α → Exec σ β} (hx : Keeps v x) (hf : ∀ a, Keeps v (f a)) :
    Keeps v (x >>= f) := by
  intro c
  have h := hx c
  unfold final at h ⊢
  rw [EStateM.run_bind]
  cases hr : x.run c with
  | ok a s =>
    rw [hr] at h
    exact (hf a s).trans h
  | error e s =>
    rw [hr] at h
    exact h

protected theorem ite {p : Prop} [Decidable p] {x y : Exec σ α} (hx : Keeps v x) (hy : Keeps v y) :
    Keeps v (if p then x else y) := by
  split
  · exact hx
  · exact hy

protected theorem modify {f : Console σ → Console σ} (h : ∀ c, v (f c) = v c) :
    Keeps v (modify f : Exec σ PUnit) := fun c => h c

/-! Reads leave the console as it is. -/

theorem regs : Keeps v (regs : Exec σ Registers) := of_final fun _ => rfl

theorem read (a : UInt16) : Keeps v (read a : Exec σ UInt8) := of_final fun _ => rfl

theorem imm8 : Keeps v (imm8 : Exec σ UInt8) := of_final fun _ => rfl

theorem readOp (o : Operand8) : Keeps v (readOp o : Exec σ UInt8) :=
  of_final fun c => by simp [final]

theorem readWord (a : UInt16) : Keeps v (readWord a : Exec σ UInt16) :=
  of_final fun c => by by_cases h : a = 0xFFFF <;> simp [final, run_readWord, h]

theorem imm16 : Keeps v (imm16 : Exec σ UInt16) := regs.bind fun _ => readWord _

/-! Writes keep a view that ignores byte writes and every register update
that leaves PC where it is. -/

section Writes

variable (hb : ∀ (c : Console σ) (a : UInt16) (x : UInt8), v { c with bus := c.bus.writeByte a x } = v c)
  (hr : ∀ (c : Console σ) (r : Registers), r.pc = c.regs.pc → v { c with regs := r } = v c)

include hr in
theorem modifyRegs {g : Registers → Registers} (hg : ∀ r, (g r).pc = r.pc) :
    Keeps v (modifyRegs g : Exec σ Unit) :=
  fun c => hr c _ (hg c.regs)

include hb in
theorem write (a : UInt16) (x : UInt8) : Keeps v (write a x : Exec σ Unit) := fun c => hb c _ _

include hb in
theorem writeWord (a w : UInt16) : Keeps v (writeWord a w : Exec σ Unit) := by
  intro c
  by_cases h : a = 0xFFFF
  · simp [final, run_writeWord, h]
  · -- a word is two byte writes
    simp only [final, run_writeWord, h, if_false, Bus.storeWord_eq]
    exact (hb { c with bus := c.bus.writeByte a (loByte w) } _ _).trans (hb c _ _)

include hb hr in
theorem push (w : UInt16) : Keeps v (push w : Exec σ Unit) :=
  regs.bind fun _ => (writeWord hb _ _).bind fun _ => modifyRegs hr (by intro; rfl)

include hr in
theorem pop : Keeps v (pop : Exec σ UInt16) :=
  regs.bind fun _ => (readWord _).bind fun _ => (modifyRegs hr (by intro; rfl)).bind fun _ => .pure _

include hb hr in
theorem writeOp (o : Operand8) (x : UInt8) : Keeps v (writeOp o x : Exec σ Unit) := by
  cases o with
  | reg q => exact modifyRegs hr fun r => Registers.pc_write8 r q x
  | hlMem => exact regs.bind fun _ => write hb _ _

include hr in
theorem address (i : Indirect) : Keeps v (address i : Exec σ UInt16) := by
  cases i with
  | bc | de | highC => exact regs.bind fun _ => .pure _
  | hlInc | hlDec => exact regs.bind fun _ => (modifyRegs hr (by intro; rfl)).bind fun _ => .pure _
  | high => exact imm8.bind fun _ => .pure _
  | absolute => exact imm16

include hr in
theorem accumulate (op : AluOp) (x : UInt8) : Keeps v (accumulate op x : Exec σ Unit) :=
  modifyRegs hr fun r => Registers.pc_accumulate r op x

end Writes

end Keeps

end Exec

open Exec.Keeps

section Instructions

variable {σ γ : Type} {v : Console σ → γ}
  (hb : ∀ (c : Console σ) (a : UInt16) (x : UInt8), v { c with bus := c.bus.writeByte a x } = v c)
  (hr : ∀ (c : Console σ) (r : Registers), r.pc = c.regs.pc → v { c with regs := r } = v c)

include hb hr in
theorem CbOp.run_keeps (o : CbOp) : Exec.Keeps v (o.run : Exec σ Effect) := by
  unfold CbOp.run
  refine (readOp _).bind fun x => ?_
  -- the `do` block shares its final `return` between the four kinds of operation
  dsimp only
  cases o.op with
  | shift s =>
    exact regs.bind fun _ => (modifyRegs hr (by intro; rfl)).bind fun _ =>
      (writeOp hb hr _ _).bind fun _ => .pure _
  | test b => exact (modifyRegs hr (by intro; rfl)).bind fun _ => .pure _
  | reset b => exact (writeOp hb hr _ _).bind fun _ => .pure _
  | set b => exact (writeOp hb hr _ _).bind fun _ => .pure _

include hb hr in
/-- An instruction that does not jump keeps every view that ignores byte
writes and the register updates that leave PC where it is. -/
theorem Instr.run_keeps_of_jumps_false :
    ∀ i : Instr, i.jumps = false → Exec.Keeps v (i.run : Exec σ Effect)
  | .nop, _ | .stop, _ | .halt, _ | .di, _ | .ei, _ => .pure _
  | .daa, _ | .cpl, _ | .scf, _ | .ccf, _ | .rotateA _, _ | .ldSpHl, _ | .addHl _, _ =>
    (modifyRegs hr (by intro; rfl)).bind fun _ => .pure _
  | .incPair q, _ => (modifyRegs hr fun r => Registers.pc_inc_pair r q).bind fun _ => .pure _
  | .decPair q, _ => (modifyRegs hr fun r => Registers.pc_dec_pair r q).bind fun _ => .pure _
  | .inc (.reg q), _ => (modifyRegs hr fun r => Registers.pc_inc_r8 r q).bind fun _ => .pure _
  | .dec (.reg q), _ => (modifyRegs hr fun r => Registers.pc_dec_r8 r q).bind fun _ => .pure _
  | .ld _ _, _ => (readOp _).bind fun _ => (writeOp hb hr _ _).bind fun _ => .pure _
  | .ldImm _, _ => imm8.bind fun _ => (writeOp hb hr _ _).bind fun _ => .pure _
  | .loadA _, _ =>
    (address hr _).bind fun _ => (read _).bind fun _ => (modifyRegs hr (by intro; rfl)).bind fun _ =>
      .pure _
  | .storeA _, _ => regs.bind fun _ => (address hr _).bind fun _ => (write hb _ _).bind fun _ => .pure _
  | .ldPairImm q, _ =>
    imm16.bind fun _ => (modifyRegs hr fun r => Registers.pc_set_pair r q _).bind fun _ => .pure _
  | .storeSp, _ => imm16.bind fun _ => regs.bind fun _ => (writeWord hb _ _).bind fun _ => .pure _
  | .ldHlSpOffset, _ | .addSp, _ => imm8.bind fun _ => (modifyRegs hr (by intro; rfl)).bind fun _ => .pure _
  | .inc .hlMem, _ | .dec .hlMem, _ =>
    regs.bind fun _ => (read _).bind fun _ => (modifyRegs hr (by intro; rfl)).bind fun _ =>
      (write hb _ _).bind fun _ => .pure _
  | .alu _ _, _ => (readOp _).bind fun _ => (accumulate hr _ _).bind fun _ => .pure _
  | .aluImm _, _ => imm8.bind fun _ => (accumulate hr _ _).bind fun _ => .pure _
  | .push _, _ => regs.bind fun _ => (Exec.Keeps.push hb hr _).bind fun _ => .pure _
  | .pop q, _ =>
    (Exec.Keeps.pop hr).bind fun _ => (modifyRegs hr fun r => Registers.pc_set_stackPair r q _).bind fun _ => .pure _
  | .cb, _ => imm8.bind fun _ => CbOp.run_keeps hb hr _

end Instructions

/-- The handler of an instruction that does not jump leaves PC where it
found it, on its first operand byte. -/
theorem Instr.run_keeps_pc {σ : Type} {i : Instr} (hj : i.jumps = false) :
    Exec.Keeps (fun c : Console σ => c.regs.pc) i.run :=
  run_keeps_of_jumps_false (fun _ _ _ => rfl) (fun _ _ h => h) i hj

/-- A view that ignores the registers and byte writes is kept by every
instruction, whether it finishes or fails. -/
theorem Instr.run_keeps_of_regs_bus {σ γ : Type} {v : Console σ → γ}
    (hb : ∀ (c : Console σ) (a : UInt16) (x : UInt8), v { c with bus := c.bus.writeByte a x } = v c)
    (hr : ∀ (c : Console σ) (r : Registers), v { c with regs := r } = v c) (i : Instr) :
    Exec.Keeps v i.run := by
  have hr' : ∀ (c : Console σ) (r : Registers), r.pc = c.regs.pc → v { c with regs := r } = v c :=
    fun c r _ => hr c r
  have setPc : ∀ w, Exec.Keeps v (Exec.setPc w : Exec σ Unit) := fun _ c => hr c _
  cases hj : i.jumps
  · exact run_keeps_of_jumps_false hb hr' i hj
  · -- the jumps set PC, which this view does not see
    cases i with
    | jr _ =>
      exact imm8.bind fun _ => regs.bind fun _ =>
        .ite ((setPc _).bind fun _ => .pure _) ((setPc _).bind fun _ => .pure _)
    | jp _ =>
      exact imm16.bind fun _ => regs.bind fun _ =>
        .ite ((setPc _).bind fun _ => .pure _) ((setPc _).bind fun _ => .pure _)
    | jpHl => exact regs.bind fun _ => (setPc _).bind fun _ => .pure _
    | call _ =>
      exact imm16.bind fun _ => regs.bind fun _ =>
        .ite ((Exec.Keeps.push hb hr' _).bind fun _ => (setPc _).bind fun _ => .pure _)
          ((setPc _).bind fun _ => .pure _)
    | ret _ =>
      exact regs.bind fun _ =>
        .ite ((Exec.Keeps.pop hr').bind fun _ => (setPc _).bind fun _ => .pure _) (.pure _)
    | reti => exact (Exec.Keeps.pop hr').bind fun _ => (setPc _).bind fun _ => .pure _
    | rst _ => exact regs.bind fun _ => (Exec.Keeps.push hb hr' _).bind fun _ => (setPc _).bind fun _ => .pure _
    | _ => cases hj

/-- No instruction touches the processor's control state or the interrupt
controller, whether it finishes or fails. -/
theorem Instr.run_keeps_control {σ : Type} (i : Instr) :
    Exec.Keeps (fun c : Console σ => (c.cpu, c.interrupts)) i.run :=
  run_keeps_of_regs_bus (fun _ _ _ => rfl) (fun _ _ => rfl) i

end Dmg
