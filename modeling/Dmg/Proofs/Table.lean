import Dmg.Proofs.Exec
/-!
# The opcode table against the instruction set's reading

The engine runs the opcode table, `Dmg.instructions`: it looks up the
opcode's line and runs the line's routine on the line's operands, which the
routine reads and writes through untyped accessors. The instruction set's own
reading of an opcode is `Dmg.decode`, by the opcode's fields, and an
instruction's reading of itself is its line `Instr.descriptor` and its action
`Instr.run` on typed operands. The two agree:

* the 256 lines of the table are the lines of the decoded instructions,
  every field of every line, and the eleven holes are the unmapped line
  (`descriptorOf_eq_decode`, checked over the whole table);
* on the operands an instruction's line names, the accessors do what the typed
  operands do (`Descriptor.read8_ofOperand8`, `Descriptor.address_ofIndirect`,
  ...), so the line's routine runs the instruction (`Instr.descriptor_run`).

So executing an opcode runs the instruction it decodes to
(`Console.execute_eq`), and every later proof about execution reads the
instruction set.

Key theorems: `descriptorOf_eq_decode`, `Instr.descriptor_run`,
`Console.execute_eq`.
-/

namespace Dmg

theorem forall_uint8 {P : UInt8 → Prop} : (∀ x, P x) ↔ ∀ n : Fin 256, P (UInt8.ofFin n) :=
  ⟨fun h n => h (UInt8.ofFin n), fun h x => h x.toFin⟩

/-! ### The table, line by line -/

/-- **The opcode table is the instruction set's reading.** Every line of the
table is the line of the instruction its opcode decodes to, field by field:
mnemonic, cycles, operand bytes, destination, source, condition, jump flag and
routine. The eleven holes have the unmapped line. -/
theorem descriptorOf_eq_decode : ∀ op : UInt8,
    descriptorOf op = match decode op with
      | some i => i.descriptor
      | none => Descriptor.unmapped := by
  rw [forall_uint8]
  decide +kernel

theorem descriptorOf_of_decode {op : UInt8} {i : Instr} (h : decode op = some i) :
    descriptorOf op = i.descriptor := by
  rw [descriptorOf_eq_decode, h]

theorem descriptorOf_of_hole {op : UInt8} (h : decode op = none) : descriptorOf op = Descriptor.unmapped := by
  rw [descriptorOf_eq_decode, h]

/-! ### The accessors on the operands an instruction names -/

@[simp] theorem R8.isWide_reg (r : R8) : r.reg.isWide = false := by cases r <;> rfl

@[simp] theorem Pair.isWide_reg (p : Pair) : p.reg.isWide = true := by cases p <;> rfl

@[simp] theorem StackPair.isWide_reg (p : StackPair) : p.reg.isWide = true := by cases p <;> rfl

@[simp] theorem loByte_toUInt16 (v : UInt8) : loByte v.toUInt16 = v := UInt8.toUInt8_toUInt16 v

/-- A byte register reads, as a word, below 256. -/
theorem Registers.get_r8 (r : Registers) (q : R8) : r.get q.reg = (r.read8 q).toUInt16 := by
  cases q <;> rfl

/-- A byte register written with a byte's word takes the byte. -/
theorem Registers.set_r8 (r : Registers) (q : R8) (v : UInt8) : r.set q.reg v.toUInt16 = r.write8 q v := by
  cases q <;> simp [Registers.set, Registers.write8, R8.reg]

/-- The high page's offset register C, as a word, is its own low byte. -/
theorem toUInt16_and_ff : ∀ v : UInt8, v.toUInt16 &&& 0x00FF = v.toUInt16 := by
  rw [forall_uint8]
  decide +kernel

namespace Exec

variable {σ α : Type}

theorem ext {x y : Exec σ α} (h : ∀ c, x.run c = y.run c) : x = y := funext h

end Exec

namespace Descriptor

open Exec

variable {σ : Type} (d : Descriptor)

theorem read8_ofOperand8 (o : Operand8) : (d.read8 (.ofOperand8 o) : Exec σ UInt8) = readOp o := by
  cases o with
  | reg q =>
    refine Exec.ext fun c => ?_
    simp [read8, Operand.ofOperand8, Registers.get_r8, Console.operand]
  | hlMem => rfl

theorem write8_ofOperand8 (o : Operand8) (v : UInt8) :
    (d.write8 (.ofOperand8 o) v : Exec σ Unit) = writeOp o v := by
  cases o with
  | reg q =>
    refine Exec.ext fun c => ?_
    simp [write8, Operand.ofOperand8, Registers.set_r8, Console.setOperand]
  | hlMem => rfl

theorem read8_a : (d.read8 (.reg .a) : Exec σ UInt8) = do return (← regs).a :=
  d.read8_ofOperand8 (.reg .a)

theorem write8_a (v : UInt8) : (d.write8 (.reg .a) v : Exec σ Unit) = modifyRegs fun x => { x with a := v } :=
  d.write8_ofOperand8 (.reg .a) v

/-- The address operands of the accumulator loads and stores are taken as the
instruction takes them. -/
theorem address_ofIndirect (i : Indirect) :
    (d.address (.ofIndirect i) : Exec σ UInt16) = Exec.address i := by
  cases i with
  | highC =>
    refine Exec.ext fun c => ?_
    simp [address, Exec.address, Operand.ofIndirect, Registers.get, toUInt16_and_ff]
  | _ => rfl

theorem read8_ofIndirect (i : Indirect) :
    (d.read8 (.ofIndirect i) : Exec σ UInt8) = Exec.address i >>= read := by
  rw [← address_ofIndirect d i]
  cases i <;> rfl

theorem write8_ofIndirect (i : Indirect) (v : UInt8) :
    (d.write8 (.ofIndirect i) v : Exec σ Unit) = Exec.address i >>= fun a => write a v := by
  rw [← address_ofIndirect d i]
  cases i <;> rfl

theorem read16_wide {r : Reg} (h : r.isWide = true) :
    (d.read16 (.reg r) : Exec σ UInt16) = do return (← regs).get r := by
  simp [read16, h]

theorem wideReg_wide {r : Reg} (h : r.isWide = true) : (d.wideReg (.reg r) : Exec σ Reg) = pure r := by
  simp [wideReg, h]

/-- The CB routine on the table's operands runs the operation on its typed
target. -/
theorem runCb_eq (o : CbOp) : (d.runCb o : Exec σ Effect) = o.run := by
  obtain ⟨op, target⟩ := o
  -- the effect is read off whether the target is (HL) and whether the operation writes
  cases op <;> cases target <;> simp only [runCb, CbOp.run, read8_ofOperand8, write8_ofOperand8] <;>
    simp [Operand.ofOperand8, Operand.isMemory, CbOp.extraCycles]

end Descriptor

/-! ### The routine of an instruction's line -/

@[simp] theorem Registers.hl_inc8 (r : Registers) (v : UInt8) : (r.inc8 v).2.hl = r.hl := rfl

@[simp] theorem Registers.hl_dec8 (r : Registers) (v : UInt8) : (r.dec8 v).2.hl = r.hl := rfl

/-- The restart vectors, as the table spells them and as the instruction
computes them. -/
theorem rst_vector (n : Fin 8) : (UInt8.ofNat (n.val * 8)).toUInt16 = UInt16.ofNat (n.val * 8) := by
  revert n
  decide

/-- **An instruction's line runs the instruction.** The routine of the line,
reading and writing the line's operands through the table's accessors, does
what the instruction does on its typed operands. -/
theorem Instr.descriptor_run {σ : Type} (i : Instr) : (i.descriptor.run : Exec σ Effect) = i.run := by
  -- the routines that take no operand are the instruction's own; the others
  -- meet it once the accessors are read on the line's operands
  cases i with
  | ld dst src =>
    simp only [Descriptor.run, descriptor, handler, Instr.src, Instr.dst, Descriptor.read8_ofOperand8,
      Descriptor.write8_ofOperand8]
    rfl
  | ldImm dst =>
    simp only [Descriptor.run, descriptor, handler, Instr.dst, Descriptor.write8_ofOperand8]
    rfl
  | alu op src =>
    simp only [Descriptor.run, descriptor, handler, Instr.src, Descriptor.read8_ofOperand8]
    rfl
  | loadA a =>
    simp only [Descriptor.run, descriptor, handler, Instr.src, Instr.dst, Descriptor.read8_ofIndirect,
      Descriptor.write8_a, bind_assoc]
    rfl
  | storeA a =>
    simp only [Descriptor.run, descriptor, handler, Instr.src, Instr.dst, Descriptor.read8_a,
      Descriptor.write8_ofIndirect, bind_assoc, pure_bind]
    rfl
  | ldPairImm p =>
    simp only [Descriptor.run, descriptor, handler, Instr.dst, Descriptor.wideReg_wide, Pair.isWide_reg,
      pure_bind]
    rfl
  | incPair p =>
    simp only [Descriptor.run, descriptor, handler, Instr.dst, Descriptor.wideReg_wide, Pair.isWide_reg,
      pure_bind]
    rfl
  | decPair p =>
    simp only [Descriptor.run, descriptor, handler, Instr.dst, Descriptor.wideReg_wide, Pair.isWide_reg,
      pure_bind]
    rfl
  | pop p =>
    simp only [Descriptor.run, descriptor, handler, Instr.dst, Descriptor.wideReg_wide, StackPair.isWide_reg,
      pure_bind]
    rfl
  | push p =>
    simp only [Descriptor.run, descriptor, handler, Instr.src, Descriptor.read16_wide, StackPair.isWide_reg,
      bind_assoc, pure_bind]
    rfl
  | addHl p =>
    simp only [Descriptor.run, descriptor, handler, Instr.src, Descriptor.read16_wide, Pair.isWide_reg,
      bind_assoc, pure_bind]
    rfl
  | rst n =>
    simp only [Descriptor.run, descriptor, handler, Instr.src, rst_vector]
    rfl
  | cb =>
    simp only [Descriptor.run, descriptor, handler, Descriptor.prefixCb, Descriptor.runCb_eq]
    rfl
  | inc o =>
    cases o with
    | reg q => rfl
    | hlMem =>
      -- the line re-reads HL for the write; the increment's flags leave HL as it was
      refine Exec.ext fun c => ?_
      simp [Descriptor.run, descriptor, handler, Instr.dst, Operand.ofOperand8, Descriptor.read8,
        Descriptor.write8, Descriptor.address, Operand.isMemory, Instr.run, Exec.regs, Exec.read,
        Exec.modifyRegs, Exec.write, Registers.get, bind, EStateM.bind, EStateM.run, pure, EStateM.pure]
  | dec o =>
    cases o with
    | reg q => rfl
    | hlMem =>
      refine Exec.ext fun c => ?_
      simp [Descriptor.run, descriptor, handler, Instr.dst, Operand.ofOperand8, Descriptor.read8,
        Descriptor.write8, Descriptor.address, Operand.isMemory, Instr.run, Exec.regs, Exec.read,
        Exec.modifyRegs, Exec.write, Registers.get, bind, EStateM.bind, EStateM.run, pure, EStateM.pure]
  | _ => rfl

/-! ### Executing an opcode -/

/-- **Executing an opcode runs the instruction it decodes to.** The engine,
which looks up the opcode's table line and runs its routine, fails on a hole
with PC on the opcode, and otherwise steps PC onto the operands, runs the
decoded instruction, moves PC past its operands unless it jumps, counts it,
completes its effect and takes its cycles. -/
theorem Console.execute_eq {σ : Type} : (Console.execute : Exec σ Nat) = do
    let pc := (← Exec.regs).pc
    let opcode ← Exec.read pc
    match decode opcode with
    | none => throw (.unmappedOpcode opcode pc)
    | some i =>
      Exec.setPc (pc + 1)
      let e ← i.run
      if !i.jumps then Exec.modifyRegs fun r => r.advancePc (UInt16.ofNat i.operandLen)
      modify fun c => { c with cpu := { c.cpu with executed := c.cpu.executed + 1 } }
      let extra ← Console.finish e
      return i.cycles + extra := by
  unfold Console.execute
  refine bind_congr fun r => bind_congr fun opcode => ?_
  cases hd : decode opcode with
  | none =>
    rw [descriptorOf_of_hole hd]
    rfl
  | some i =>
    rw [descriptorOf_of_decode hd]
    simp only [Instr.descriptor_run]
    rfl

end Dmg
