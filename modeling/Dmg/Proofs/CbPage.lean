import Dmg.Proofs.Regular
/-!
# The CB page against its field reading

A CB-page operation byte `cb = 64x + 8y + z` reads, as the processor's manual
lays it out, as an operation on entry `z` of `r = B C D E H L (HL) A`
(`Regular.r`, with (HL) read and written through the bus):

* `x = 0`: entry `y` of `RLC RRC RL RR SLA SRA SWAP SRL` (`Cb.shift`); C is
  the bit shifted out (RL and RR shift the old C in, SWAP clears C), Z is set
  when the result is zero, N and H are cleared;
* `x = 1`: `BIT y`: Z is set when bit `y` is clear, N is cleared, H is set, C
  and the operand are kept, and nothing is written;
* `x = 2`, `x = 3`: `RES y` and `SET y` (`Cb.res`, `Cb.set`), flags kept.

`Cb.step` is that reading, written out on its own in arithmetic on the byte's
value, with PC moved past the prefix and the operation byte. Executing
`CB cb` on any console finishes with exactly its registers and bus
(`Cb.executesTo_cb`). The accumulator rotates RLCA, RRCA, RLA and RRA give A and
C as `CB 07`, `CB 0F`, `CB 17` and `CB 1F` do, with Z cleared
(`Cb.executesTo_rotateA`).

The proof goes through the decoding of the operation byte
(`Cb.decode_fields`), the operand tables of `Dmg.Regular`, and the byte
arithmetic of the shifts and bit operations (`Cb.result_ofIndex`,
`Cb.test_eq`, `Cb.res_eq`, `Cb.set_eq`), each settled over all bytes.

Key definitions: `Cb.x`, `Cb.shift`, `Cb.res`, `Cb.set`, `Cb.step`.
Key theorems: `Cb.decode_fields`, `Cb.result_ofIndex`, `Cb.executesTo_cb`,
`Cb.executesTo_rotateA`, `Cb.cb_refines_fields`.
-/

namespace Dmg
namespace Cb

open Regular

/-! ### The reading by fields -/

/-- The field `x`, bits 7 and 6. -/
def x (op : UInt8) : Fin 4 := ⟨op.toNat / 64, by have := op.toNat_lt; omega⟩

/-- Entry `k` of `RLC RRC RL RR SLA SRA SWAP SRL` on the byte `v`, with `c`
the old carry: the result and the bit shifted out, in arithmetic on the
value `n` of `v`. -/
def shift (k : Fin 8) (v : UInt8) (c : Bool) : UInt8 × Bool :=
  let n := v.toNat
  let cin := if c then 1 else 0
  match k with
  | 0 => (UInt8.ofNat (2 * n % 256 + n / 128), n / 128 = 1)
  | 1 => (UInt8.ofNat (n / 2 + n % 2 * 128), n % 2 = 1)
  | 2 => (UInt8.ofNat (2 * n % 256 + cin), n / 128 = 1)
  | 3 => (UInt8.ofNat (n / 2 + cin * 128), n % 2 = 1)
  | 4 => (UInt8.ofNat (2 * n % 256), n / 128 = 1)
  | 5 => (UInt8.ofNat (n / 2 + n / 128 * 128), n % 2 = 1)
  | 6 => (UInt8.ofNat (n % 16 * 16 + n / 16), false)
  | 7 => (UInt8.ofNat (n / 2), n % 2 = 1)

/-- The byte `v` with bit `b` cleared. -/
def res (b : Fin 8) (v : UInt8) : UInt8 :=
  if v.toNat.testBit b then UInt8.ofNat (v.toNat - 2 ^ b.val) else v

/-- The byte `v` with bit `b` set. -/
def set (b : Fin 8) (v : UInt8) : UInt8 :=
  if v.toNat.testBit b then v else UInt8.ofNat (v.toNat + 2 ^ b.val)

/-- The registers and the bus after `CB cb`, read by its fields, with PC on
the prefix before it. -/
def step (cb : UInt8) (regs : Registers) (bus : Bus) : Registers × Bus :=
  let past : Registers := { regs with pc := regs.pc + 2 }
  let v := r regs bus (z cb)
  match x cb with
  | 0 =>
    let (w, out) := shift (y cb) v regs.flags.carry
    setR { past with f := (⟨w = 0, false, false, out⟩ : Flags).toByte } bus (z cb) w
  | 1 =>
    (past.writeFlags { regs.flags with zero := !v.toNat.testBit (y cb), subtract := false, halfCarry := true },
      bus)
  | 2 => setR past bus (z cb) (res (y cb) v)
  | 3 => setR past bus (z cb) (set (y cb) v)

/-! ### Decoding and byte arithmetic, over all bytes -/

/-- The operation a CB byte selects is the one its fields name. -/
theorem decode_fields : ∀ cb : UInt8, CbOp.decode cb =
    ⟨match x cb with
      | 0 => .shift (Shift.ofIndex (UInt8.ofNat (y cb)))
      | 1 => .test (y cb)
      | 2 => .reset (y cb)
      | 3 => .set (y cb),
     Operand8.ofIndex (UInt8.ofNat (z cb))⟩ := by
  rw [forall_uint8]
  decide +kernel

/-- The shift the field `y` selects is entry `y` of `shift`. -/
theorem result_ofIndex : ∀ (k : Fin 8) (v : UInt8) (c : Bool),
    (Shift.ofIndex (UInt8.ofNat k)).result v c = shift k v c := by
  intro k v
  revert k
  revert v
  rw [forall_uint8]
  decide +kernel

/-- `BIT b` finds bit `b` clear exactly when the masked byte is zero. -/
theorem test_eq : ∀ (b : Fin 8) (v : UInt8), (v &&& (1 <<< UInt8.ofNat b.val) == 0) = !v.toNat.testBit b := by
  intro b v
  revert b
  revert v
  rw [forall_uint8]
  decide +kernel

theorem res_eq : ∀ (b : Fin 8) (v : UInt8), v &&& ~~~(1 <<< UInt8.ofNat b.val) = res b v := by
  intro b v
  revert b
  revert v
  rw [forall_uint8]
  decide +kernel

theorem set_eq : ∀ (b : Fin 8) (v : UInt8), v ||| (1 <<< UInt8.ofNat b.val) = set b v := by
  intro b v
  revert b
  revert v
  rw [forall_uint8]
  decide +kernel

/-! ### Execution -/

section Execution

variable {σ : Type}

open Exec

/-- What a CB-page operation does to a console: a shift writes its result
back and sets the flags from it, `BIT` sets Z, N and H only, and `RES` and
`SET` write the changed byte back. -/
def apply (o : CbOp) (c : Console σ) : Console σ :=
  match o.op with
  | .shift s =>
    { c with regs := { c.regs with f := (s.apply (c.operand o.target) c.regs.flags).2.toByte } }.setOperand
      o.target (s.apply (c.operand o.target) c.regs.flags).1
  | .test b =>
    { c with
      regs := c.regs.writeFlags { c.regs.flags with
        zero := c.operand o.target &&& (1 <<< UInt8.ofNat b.val) == 0, subtract := false, halfCarry := true } }
  | .reset b => c.setOperand o.target (c.operand o.target &&& ~~~(1 <<< UInt8.ofNat b.val))
  | .set b => c.setOperand o.target (c.operand o.target ||| (1 <<< UInt8.ofNat b.val))

theorem run_cbOp (o : CbOp) (c : Console σ) :
    (o.run : Exec σ Effect).run c =
      .ok (if o.extraCycles = 0 then .done else .extra o.extraCycles) (apply o c) := by
  obtain ⟨op, t⟩ := o
  cases op <;> simp [CbOp.run, apply, Registers.aluRotate_eq, Registers.setFlag_eq_writeFlags, Flags.set]

/-- The prefix reads the operation byte at PC and runs the operation. -/
theorem run_cb (c : Console σ) :
    ((Instr.cb).run : Exec σ Effect).run c =
      ((CbOp.decode (c.bus.readByte c.regs.pc)).run : Exec σ Effect).run c := by
  simp only [Instr.run, EStateM.run_bind, run_imm8]

/-- Moving PC leaves the operand table alone. -/
theorem r_setPc (regs : Registers) (bus : Bus) (k : Fin 8) (p : UInt16) :
    r { regs with pc := p } bus k = r regs bus k := by
  fin_cases k <;> rfl

/-- Writing an entry of the table and then moving PC is moving PC first. -/
theorem setR_advancePc (regs : Registers) (bus : Bus) (k : Fin 8) (v : UInt8) (n : UInt16) :
    ((setR regs bus k v).1.advancePc n, (setR regs bus k v).2) = setR (regs.advancePc n) bus k v := by
  fin_cases k <;> rfl

/-! Each kind of operation on entry `j` of the table, as the field reading
states it. -/

theorem apply_shift (d : Console σ) (k j : Fin 8) :
    ((apply ⟨.shift (Shift.ofIndex (UInt8.ofNat k)), Operand8.ofIndex (UInt8.ofNat j)⟩ d).regs,
      (apply ⟨.shift (Shift.ofIndex (UInt8.ofNat k)), Operand8.ofIndex (UInt8.ofNat j)⟩ d).bus) =
      setR { d.regs with
          f := (⟨(shift k (r d.regs d.bus j) d.regs.flags.carry).1 = 0, false, false,
            (shift k (r d.regs d.bus j) d.regs.flags.carry).2⟩ : Flags).toByte }
        d.bus j (shift k (r d.regs d.bus j) d.regs.flags.carry).1 := by
  simp only [apply, operand_ofIndex, setOperand_ofIndex, Shift.apply, result_ofIndex, Bool.beq_eq_decide_eq]

theorem apply_test (d : Console σ) (k j : Fin 8) :
    ((apply ⟨.test k, Operand8.ofIndex (UInt8.ofNat j)⟩ d).regs,
      (apply ⟨.test k, Operand8.ofIndex (UInt8.ofNat j)⟩ d).bus) =
      (d.regs.writeFlags { d.regs.flags with zero := !(r d.regs d.bus j).toNat.testBit k, subtract := false,
                                              halfCarry := true }, d.bus) := by
  simp only [apply, operand_ofIndex, test_eq]

theorem apply_reset (d : Console σ) (k j : Fin 8) :
    ((apply ⟨.reset k, Operand8.ofIndex (UInt8.ofNat j)⟩ d).regs,
      (apply ⟨.reset k, Operand8.ofIndex (UInt8.ofNat j)⟩ d).bus) =
      setR d.regs d.bus j (res k (r d.regs d.bus j)) := by
  simp only [apply, operand_ofIndex, setOperand_ofIndex, res_eq]

theorem apply_set (d : Console σ) (k j : Fin 8) :
    ((apply ⟨.set k, Operand8.ofIndex (UInt8.ofNat j)⟩ d).regs,
      (apply ⟨.set k, Operand8.ofIndex (UInt8.ofNat j)⟩ d).bus) =
      setR d.regs d.bus j (set k (r d.regs d.bus j)) := by
  simp only [apply, operand_ofIndex, setOperand_ofIndex, set_eq]

/-- Executing `CB cb` finishes with the registers and the bus that the field
reading gives. -/
theorem executesTo_cb (c : Console σ) (hop : c.bus.readByte c.regs.pc = 0xCB) :
    ExecutesTo c (step (c.bus.readByte (c.regs.pc + 1)) c.regs c.bus) := by
  have hd : decode (c.bus.readByte c.regs.pc) = some .cb := by rw [hop]; rfl
  set c' : Console σ := { c with regs := { c.regs with pc := c.regs.pc + 1 } } with hc'
  have hr := (run_cb c').trans (run_cbOp _ c')
  refine (executesTo_of_run hd rfl hr).congr ?_
  have hpc : c'.regs.pc + UInt16.ofNat (Instr.cb).operandLen = c.regs.pc + 2 := by
    show c.regs.pc + 1 + 1 = c.regs.pc + 2
    rw [UInt16.add_assoc]
    rfl
  have hread : c'.bus.readByte c'.regs.pc = c.bus.readByte (c.regs.pc + 1) := rfl
  rw [hread]
  generalize c.bus.readByte (c.regs.pc + 1) = cb
  have hv : r c'.regs c'.bus (z cb) = r c.regs c.bus (z cb) := r_setPc _ _ _ _
  change (fun p : Registers × Bus => (p.1.advancePc (UInt16.ofNat (Instr.cb).operandLen), p.2))
    ((apply (CbOp.decode cb) c').regs, (apply (CbOp.decode cb) c').bus) = _
  obtain ⟨k, hk⟩ : ∃ k, x cb = k := ⟨_, rfl⟩
  -- one case per kind of operation, each read off its own lemma
  fin_cases k
  · have hdec : CbOp.decode cb =
        ⟨.shift (Shift.ofIndex (UInt8.ofNat (y cb))), Operand8.ofIndex (UInt8.ofNat (z cb))⟩ := by
      rw [decode_fields, hk]
    rw [hdec, apply_shift]
    beta_reduce
    rw [setR_advancePc]
    simp only [Registers.advancePc, hpc, step, hk, hv]
    rfl
  · have hdec : CbOp.decode cb = ⟨.test (y cb), Operand8.ofIndex (UInt8.ofNat (z cb))⟩ := by
      rw [decode_fields, hk]
    rw [hdec, apply_test]
    simp only [Registers.advancePc, Registers.pc_writeFlags, hpc, step, hk, hv]
    rfl
  · have hdec : CbOp.decode cb = ⟨.reset (y cb), Operand8.ofIndex (UInt8.ofNat (z cb))⟩ := by
      rw [decode_fields, hk]
    rw [hdec, apply_reset]
    beta_reduce
    rw [setR_advancePc]
    simp only [Registers.advancePc, hpc, step, hk, hv]
    rfl
  · have hdec : CbOp.decode cb = ⟨.set (y cb), Operand8.ofIndex (UInt8.ofNat (z cb))⟩ := by
      rw [decode_fields, hk]
    rw [hdec, apply_set]
    beta_reduce
    rw [setR_advancePc]
    simp only [Registers.advancePc, hpc, step, hk, hv]
    rfl

/-- The accumulator rotates spell out their flags in F, as the shifts do,
and then clear Z. -/
theorem run_rotateA (d : Console σ) (s : Shift) :
    ((Instr.rotateA s).run : Exec σ Effect).run d = .ok .done
      { d with regs := { d.regs with a := (s.apply d.regs.a d.regs.flags).1,
                                     f := ({ (s.apply d.regs.a d.regs.flags).2 with zero := false } : Flags).toByte } } := by
  simp only [Instr.run, EStateM.run_bind, Exec.run_modifyRegs, EStateM.run_pure, Registers.aluRotate_eq,
    Registers.setFlag_eq_writeFlags, Registers.writeFlags, Registers.flags, Flags.ofByte_toByte, Flags.toByte_low,
    UInt8.or_zero, Flags.set]

/-- RLCA, RRCA, RLA and RRA give A and C as the CB operation with the same byte
does on A, with Z cleared, and move PC past their one byte. -/
theorem executesTo_rotateA (c : Console σ) {op : UInt8}
    (hop : op = 0x07 ∨ op = 0x0F ∨ op = 0x17 ∨ op = 0x1F) (hpc : c.bus.readByte c.regs.pc = op) :
    ExecutesTo c ({ (step op c.regs c.bus).1 with pc := c.regs.pc + 1 }.writeFlags
        { (step op c.regs c.bus).1.flags with zero := false }, c.bus) := by
  -- each rotate is the shift the CB byte's `y` field names, on A (entry 7)
  have hd : decode (c.bus.readByte c.regs.pc) = some (.rotateA (Shift.ofIndex (UInt8.ofNat (y op)))) := by
    rw [hpc]
    rcases hop with rfl | rfl | rfl | rfl <;> rfl
  have hx : x op = 0 := by rcases hop with rfl | rfl | rfl | rfl <;> rfl
  have hz : z op = 7 := by rcases hop with rfl | rfl | rfl | rfl <;> rfl
  refine (executesTo_of_run hd rfl (run_rotateA _ _)).congr ?_
  have hpast : c.regs.pc + 1 + UInt16.ofNat (Instr.rotateA (Shift.ofIndex (UInt8.ofNat (y op)))).operandLen =
      c.regs.pc + 1 := UInt16.add_zero _
  simp only [step, hx, hz, setR, r, Shift.apply, result_ofIndex, Registers.advancePc, hpast,
    Registers.writeFlags, Registers.flags, Flags.ofByte_toByte, Flags.toByte_low, UInt8.or_zero]

/-- CB-prefixed execution refines the field reading. On every console whose
opcode at PC is the `CB` prefix, executing finishes with the registers and the
bus `Cb.step` reads off the operation byte `64x + 8y + z`: the operation
entry `x` and `y` name, applied to entry `z` of `B C D E H L (HL) A`, and
nothing else changed but PC, past both bytes. RLCA, RRCA, RLA and RRA give A
and C as `CB 07`, `CB 0F`, `CB 17` and `CB 1F` do, with Z cleared. -/
theorem cb_refines_fields (c : Console σ) :
    (c.bus.readByte c.regs.pc = 0xCB →
      ExecutesTo c (step (c.bus.readByte (c.regs.pc + 1)) c.regs c.bus)) ∧
    ∀ op : UInt8, (op = 0x07 ∨ op = 0x0F ∨ op = 0x17 ∨ op = 0x1F) → c.bus.readByte c.regs.pc = op →
      ExecutesTo c ({ (step op c.regs c.bus).1 with pc := c.regs.pc + 1 }.writeFlags
        { (step op c.regs c.bus).1.flags with zero := false }, c.bus) :=
  ⟨executesTo_cb c, fun _ hop hpc => executesTo_rotateA c hop hpc⟩

end Execution

/-- A console about to run `SWAP A` from high RAM, with A = 0xF1. -/
def swapConsole : Console Unit :=
  { Console.new Config.standard () with
    regs := { Registers.powerOn with a := 0xF1, pc := 0xFF80 }
    bus := ((Bus.new .dmg).writeByte 0xFF80 0xCB).writeByte 0xFF81 0x37 }

/-- `SWAP A` exchanges the nibbles of A and clears every flag. -/
theorem swap_exchanges_nibbles :
    swapConsole.bus.readByte swapConsole.regs.pc = 0xCB ∧
    ExecutesTo swapConsole
      ({ swapConsole.regs with a := 0x1F, f := 0, pc := 0xFF82 },
        swapConsole.bus) := by
  have hbus : swapConsole.bus = ((Bus.new .dmg).writeByte 0xFF80 0xCB).writeByte 0xFF81 0x37 := rfl
  have hop : swapConsole.bus.readByte swapConsole.regs.pc = 0xCB := by
    rw [hbus, show swapConsole.regs.pc = 0xFF80 from rfl,
      Bus.readByte_writeByte_io _ _ (by decide) (by decide)]
    exact Bus.readByte_writeByte_self _ _ (by decide)
  have hsub : swapConsole.bus.readByte (swapConsole.regs.pc + 1) = 0x37 := by
    rw [hbus]
    exact Bus.readByte_writeByte_self _ _ (by decide)
  refine ⟨hop, ((cb_refines_fields swapConsole).1 hop).congr ?_⟩
  rw [hsub]
  rfl

end Cb
end Dmg
