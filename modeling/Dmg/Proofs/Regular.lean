import Mathlib.Tactic.FinCases
import Mathlib.Data.Fintype.Fin
import Dmg.Proofs.Arith
/-!
# The regular blocks of the opcode table

Most of the opcode space follows the field layout of the processor's manual:
an opcode is read as `x` (bits 7 and 6), `y` (bits 5 to 3) and `z` (bits 2
to 0), with `p = y / 2` and `q = y mod 2`, and the fields index three tables,

* `r = B C D E H L (HL) A`, where (HL) is the bus byte at HL, read with
  `Bus.readByte` and written with `Bus.writeByte`;
* `rp = BC DE HL SP`;
* `alu = ADD ADC SUB SBC AND XOR OR CP`.

`Regular.step` is that reading, written out on its own: for every opcode of
the regular blocks it gives the registers and the bus after the instruction,
with each result and flag computed in exact integer arithmetic (`Regular.add`,
`Regular.sub`, `Regular.inc`, `Regular.dec`, `Regular.addHl`,
`Regular.addSp`), and PC moved past the instruction. The blocks are
`LD r[y],r[z]` (x = 1, all but 0x76), `alu[y] A,r[z]` (x = 2),
`alu[y] A,d8` (0xC6 + 8y), `INC r[y]`, `DEC r[y]` and `LD r[y],d8`
(0x04, 0x05, 0x06 + 8y), `LD rp[p],d16`, `INC rp[p]`, `ADD HL,rp[p]` and
`DEC rp[p]` (0x01, 0x03, 0x09, 0x0B + 16p), `ADD SP,r8` (0xE8) and
`LD HL,SP+r8` (0xF8).

The main theorem, `execute_refines_regular`, says that executing any opcode
the manual lists for these blocks (`Regular.Listed`) on any console finishes
with exactly those registers and that bus; the one exception is `LD rp,d16`
whose operand word would pass 0xFFFF, which faults. Executing runs the opcode
table's line for the opcode; the proof goes in four layers: the table against
the instruction set's reading (`Console.execute_eq`, from the check of every
line against `decode` and from each line's routine running its instruction),
decoding (`decode_x1` and its siblings, by evaluation over all 256 opcodes),
the tables against the operands of the instruction set
(`operand_ofIndex`, `setOperand_ofIndex`, `get_ofIndex`, `set_ofIndex`), and
the arithmetic of `Alu` against integer arithmetic (`apply_ofIndex`, `inc_eq`,
`dec_eq`, `addHl_eq`, `addSigned_eq`). One lemma per block joins the last three
(`executesTo_ld` and its siblings).

Key definitions: `Regular.r`, `Regular.rp`, `Regular.alu`, `Regular.step`,
`Regular.Listed`, `Regular.ExecutesTo`.
Key theorems: `Regular.apply_ofIndex`, `Regular.addSigned_eq`,
`Regular.step_isSome`, `Regular.executesTo_of_step`,
`Regular.execute_refines_regular`.
-/

namespace Dmg
namespace Regular

/-! ### The fields and the tables -/

/-- The field `y`, bits 5 to 3. -/
def y (op : UInt8) : Fin 8 := ⟨op.toNat / 8 % 8, Nat.mod_lt _ (by decide)⟩

/-- The field `z`, bits 2 to 0. -/
def z (op : UInt8) : Fin 8 := ⟨op.toNat % 8, Nat.mod_lt _ (by decide)⟩

/-- The field `p`, bits 5 and 4. -/
def p (op : UInt8) : Fin 4 := ⟨op.toNat / 16 % 4, Nat.mod_lt _ (by decide)⟩

/-- The byte that entry `k` of `r = B C D E H L (HL) A` names. -/
def r (regs : Registers) (bus : Bus) (k : Fin 8) : UInt8 :=
  match k with
  | 0 => regs.b
  | 1 => regs.c
  | 2 => regs.d
  | 3 => regs.e
  | 4 => regs.h
  | 5 => regs.l
  | 6 => bus.readByte regs.hl
  | 7 => regs.a

/-- Write `v` to entry `k` of `r`: a register, or the bus at HL. -/
def setR (regs : Registers) (bus : Bus) (k : Fin 8) (v : UInt8) : Registers × Bus :=
  match k with
  | 0 => ({ regs with b := v }, bus)
  | 1 => ({ regs with c := v }, bus)
  | 2 => ({ regs with d := v }, bus)
  | 3 => ({ regs with e := v }, bus)
  | 4 => ({ regs with h := v }, bus)
  | 5 => ({ regs with l := v }, bus)
  | 6 => (regs, bus.writeByte regs.hl v)
  | 7 => ({ regs with a := v }, bus)

/-- The pair that entry `k` of `rp = BC DE HL SP` names. -/
def rp (regs : Registers) (k : Fin 4) : UInt16 :=
  match k with
  | 0 => regs.bc
  | 1 => regs.de
  | 2 => regs.hl
  | 3 => regs.sp

/-- Write `v` to entry `k` of `rp`, the high byte to the first register. -/
def setRp (regs : Registers) (k : Fin 4) (v : UInt16) : Registers :=
  match k with
  | 0 => { regs with b := hiByte v, c := loByte v }
  | 1 => { regs with d := hiByte v, e := loByte v }
  | 2 => { regs with h := hiByte v, l := loByte v }
  | 3 => { regs with sp := v }

/-! ### Integer arithmetic -/

/-- `a + v + c`: the sum mod 256; Z when that is zero, N clear, H when the low
nibbles and `c` reach 16, C when the sum reaches 256. -/
def add (a v : UInt8) (c : Int) : UInt8 × Flags :=
  let s : Int := a.toNat + v.toNat + c
  (UInt8.ofInt s,
    { zero := UInt8.ofInt s = 0, subtract := false,
      halfCarry := a.toNat % 16 + v.toNat % 16 + c ≥ 16, carry := s ≥ 256 })

/-- `a - v - c`: the difference mod 256; Z when that is zero, N set, H when the
low nibble of `a` is below that of `v` plus `c`, C when `a` is below `v + c`. -/
def sub (a v : UInt8) (c : Int) : UInt8 × Flags :=
  let d : Int := a.toNat - v.toNat - c
  (UInt8.ofInt d,
    { zero := UInt8.ofInt d = 0, subtract := true,
      halfCarry := a.toNat % 16 < v.toNat % 16 + c, carry := a.toNat < v.toNat + c })

/-- Entry `k` of `alu` on `a` and `v`, with `cf` the carry flag: the carry in
is `cf` for ADC and SBC and zero otherwise, and CP is SUB that keeps `a`. -/
def alu (k : Fin 8) (a v : UInt8) (cf : Bool) : UInt8 × Flags :=
  let c : Int := if cf then 1 else 0
  match k with
  | 0 => add a v 0
  | 1 => add a v c
  | 2 => sub a v 0
  | 3 => sub a v c
  | 4 => (a &&& v, { zero := a &&& v = 0, subtract := false, halfCarry := true, carry := false })
  | 5 => (a ^^^ v, { zero := a ^^^ v = 0, subtract := false, halfCarry := false, carry := false })
  | 6 => (a ||| v, { zero := a ||| v = 0, subtract := false, halfCarry := false, carry := false })
  | 7 => (a, (sub a v 0).2)

/-- `INC`: `v + 1` mod 256, Z from it, N clear, H when the low nibble reaches
16; C kept. -/
def inc (v : UInt8) (f : Flags) : UInt8 × Flags :=
  (UInt8.ofInt (v.toNat + 1),
    { f with zero := UInt8.ofInt (v.toNat + 1) = 0, subtract := false,
             halfCarry := v.toNat % 16 + 1 ≥ 16 })

/-- `DEC`: `v - 1` mod 256, Z from it, N set, H when the low nibble is below
one; C kept. -/
def dec (v : UInt8) (f : Flags) : UInt8 × Flags :=
  (UInt8.ofInt (v.toNat - 1),
    { f with zero := UInt8.ofInt (v.toNat - 1) = 0, subtract := true,
             halfCarry := v.toNat % 16 < 1 })

/-- `ADD HL,v`: the sum mod 65536, N clear, H when the low twelve bits reach
4096, C when the sum reaches 65536; Z kept. -/
def addHl (hl v : UInt16) (f : Flags) : UInt16 × Flags :=
  (UInt16.ofInt (hl.toNat + v.toNat),
    { f with subtract := false, halfCarry := hl.toNat % 4096 + v.toNat % 4096 ≥ 4096,
             carry := hl.toNat + v.toNat ≥ 65536 })

/-- The byte `d` as a signed displacement, -128 to 127. -/
def signed (d : UInt8) : Int := if d.toNat < 128 then d.toNat else d.toNat - 256

/-- `SP + d` with `d` signed, for `ADD SP,r8` and `LD HL,SP+r8`: the sum mod
65536; Z and N clear, H and C from the unsigned sums of the low nibble and the
low byte. -/
def addSp (sp : UInt16) (d : UInt8) : UInt16 × Flags :=
  (UInt16.ofInt (sp.toNat + signed d),
    { zero := false, subtract := false, halfCarry := sp.toNat % 16 + d.toNat % 16 ≥ 16,
      carry := sp.toNat % 256 + d.toNat ≥ 256 })

/-! ### The reference step -/

/-- The registers and bus after the instruction with opcode `op`, read by its
fields, for the regular blocks; `none` for every other opcode, and for
`LD rp,d16` when its operand word would pass 0xFFFF. -/
def step (op : UInt8) (regs : Registers) (bus : Bus) : Option (Registers × Bus) :=
  -- the registers with PC past the opcode and its `n` operand bytes
  let past (n : UInt16) : Registers := { regs with pc := regs.pc + 1 + n }
  let d8 := bus.readByte (regs.pc + 1)
  match op.toNat / 64, op.toNat % 8, op.toNat / 8 % 2 with
  | 1, _, _ =>
    if y op = 6 ∧ z op = 6 then none else some (setR (past 0) bus (y op) (r regs bus (z op)))
  | 2, _, _ =>
    let (a, fl) := alu (y op) regs.a (r regs bus (z op)) regs.flags.carry
    some ({ past 0 with a, f := fl.toByte }, bus)
  | 3, 6, _ =>
    let (a, fl) := alu (y op) regs.a d8 regs.flags.carry
    some ({ past 1 with a, f := fl.toByte }, bus)
  | 0, 4, _ =>
    let (v, fl) := inc (r regs bus (y op)) regs.flags
    some (setR ((past 0).writeFlags fl) bus (y op) v)
  | 0, 5, _ =>
    let (v, fl) := dec (r regs bus (y op)) regs.flags
    some (setR ((past 0).writeFlags fl) bus (y op) v)
  | 0, 6, _ => some (setR (past 1) bus (y op) d8)
  | 0, 1, 0 =>
    if regs.pc + 1 = 0xFFFF then none
    else some (setRp (past 2) (p op) (word (bus.readByte (regs.pc + 2)) d8), bus)
  | 0, 3, 0 => some (setRp (past 0) (p op) (UInt16.ofInt ((rp regs (p op)).toNat + 1)), bus)
  | 0, 1, 1 =>
    let (v, fl) := addHl regs.hl (rp regs (p op)) regs.flags
    some ((setRp (past 0) 2 v).writeFlags fl, bus)
  | 0, 3, 1 => some (setRp (past 0) (p op) (UInt16.ofInt ((rp regs (p op)).toNat - 1)), bus)
  | 3, 0, _ =>
    let (v, fl) := addSp regs.sp d8
    if y op = 5 then some ({ (past 1).writeFlags fl with sp := v }, bus)
    else if y op = 7 then some ((setRp (past 1) 2 v).writeFlags fl, bus)
    else none
  | _, _, _ => none

/-! ### Decoding -/

theorem decode_x1 : ∀ op : UInt8, op.toNat / 64 = 1 → ¬(y op = 6 ∧ z op = 6) →
    decode op = some (.ld (Operand8.ofIndex (UInt8.ofNat (y op))) (Operand8.ofIndex (UInt8.ofNat (z op)))) := by
  rw [forall_uint8]
  decide +kernel

theorem decode_x2 : ∀ op : UInt8, op.toNat / 64 = 2 →
    decode op = some (.alu (AluOp.ofIndex (UInt8.ofNat (y op))) (Operand8.ofIndex (UInt8.ofNat (z op)))) := by
  rw [forall_uint8]
  decide +kernel

theorem decode_x3 : ∀ op : UInt8, op.toNat / 64 = 3 → op.toNat % 8 = 6 →
    decode op = some (.aluImm (AluOp.ofIndex (UInt8.ofNat (y op)))) := by
  rw [forall_uint8]
  decide +kernel

theorem decode_x0 : ∀ op : UInt8, op.toNat / 64 = 0 →
    (op.toNat % 8 = 4 → decode op = some (.inc (Operand8.ofIndex (UInt8.ofNat (y op))))) ∧
    (op.toNat % 8 = 5 → decode op = some (.dec (Operand8.ofIndex (UInt8.ofNat (y op))))) ∧
    (op.toNat % 8 = 6 → decode op = some (.ldImm (Operand8.ofIndex (UInt8.ofNat (y op))))) ∧
    (op.toNat % 8 = 1 → op.toNat / 8 % 2 = 0 → decode op = some (.ldPairImm (Pair.ofIndex (UInt8.ofNat (p op))))) ∧
    (op.toNat % 8 = 3 → op.toNat / 8 % 2 = 0 → decode op = some (.incPair (Pair.ofIndex (UInt8.ofNat (p op))))) ∧
    (op.toNat % 8 = 1 → op.toNat / 8 % 2 = 1 → decode op = some (.addHl (Pair.ofIndex (UInt8.ofNat (p op))))) ∧
    (op.toNat % 8 = 3 → op.toNat / 8 % 2 = 1 → decode op = some (.decPair (Pair.ofIndex (UInt8.ofNat (p op))))) := by
  rw [forall_uint8]
  decide +kernel

/-- `ADD SP,r8` and `LD HL,SP+r8` are the opcodes with x = 3, z = 0 and y = 5 or 7. -/
theorem decode_addSp : ∀ op : UInt8, op.toNat / 64 = 3 → op.toNat % 8 = 0 →
    (y op = 5 → decode op = some .addSp) ∧ (y op = 7 → decode op = some .ldHlSpOffset) := by
  rw [forall_uint8]
  decide +kernel

/-! ### The opcodes of the regular blocks -/

/-- The opcodes of the regular blocks as the manual lists them, in hex:
0x40 to 0x7F but 0x76, 0x80 to 0xBF, 0xC6 + 8y, 0x04 + 8y, 0x05 + 8y,
0x06 + 8y, 0x01 + 16p, 0x03 + 16p, 0x09 + 16p, 0x0B + 16p, 0xE8 and 0xF8. -/
def Listed (op : UInt8) : Prop :=
  (0x40 ≤ op.toNat ∧ op.toNat ≤ 0xBF ∧ op ≠ 0x76) ∨
  (∃ k < 8, op.toNat = 0xC6 + 8 * k ∨ op.toNat = 0x04 + 8 * k ∨ op.toNat = 0x05 + 8 * k ∨
    op.toNat = 0x06 + 8 * k) ∨
  (∃ k < 4, op.toNat = 0x01 + 16 * k ∨ op.toNat = 0x03 + 16 * k ∨ op.toNat = 0x09 + 16 * k ∨
    op.toNat = 0x0B + 16 * k) ∨
  op = 0xE8 ∨ op = 0xF8

instance (op : UInt8) : Decidable (Listed op) := inferInstanceAs (Decidable (_ ∨ _))

/-- The listed opcodes fall in the blocks `step` reads, by x, z and q. -/
theorem listed_blocks : ∀ op : UInt8, Listed op →
    op.toNat / 64 = 1 ∨ op.toNat / 64 = 2 ∨
    (op.toNat / 64 = 3 ∧ (op.toNat % 8 = 6 ∨ op.toNat % 8 = 0)) ∨
    (op.toNat / 64 = 0 ∧ (op.toNat % 8 = 4 ∨ op.toNat % 8 = 5 ∨ op.toNat % 8 = 6 ∨
      op.toNat % 8 = 1 ∨ op.toNat % 8 = 3)) := by
  rw [forall_uint8]
  decide +kernel

/-- Within x = 1 only 0x76, the opcode with y = z = 6, is left out. -/
theorem listed_x1 : ∀ op : UInt8, Listed op → op.toNat / 64 = 1 → ¬(y op = 6 ∧ z op = 6) := by
  rw [forall_uint8]
  decide +kernel

/-- With x = 3 and z = 0 only y = 5 (0xE8) and y = 7 (0xF8) are listed. -/
theorem listed_x3_z0 : ∀ op : UInt8, Listed op → op.toNat / 64 = 3 → op.toNat % 8 = 0 →
    y op = 5 ∨ y op = 7 := by
  rw [forall_uint8]
  decide +kernel

/-! ### The tables against the instruction set's operands -/

section Tables

variable {σ : Type} (c : Console σ)

theorem operand_ofIndex (k : Fin 8) :
    c.operand (Operand8.ofIndex (UInt8.ofNat k)) = r c.regs c.bus k := by
  fin_cases k <;> rfl

theorem setOperand_ofIndex (k : Fin 8) (v : UInt8) :
    c.setOperand (Operand8.ofIndex (UInt8.ofNat k)) v =
      { c with regs := (setR c.regs c.bus k v).1, bus := (setR c.regs c.bus k v).2 } := by
  fin_cases k <;> rfl

theorem get_ofIndex (regs : Registers) (k : Fin 4) :
    regs.get (Pair.ofIndex (UInt8.ofNat k)).reg = rp regs k := by
  fin_cases k <;> rfl

theorem set_ofIndex (regs : Registers) (k : Fin 4) (v : UInt16) :
    regs.set (Pair.ofIndex (UInt8.ofNat k)).reg v = setRp regs k v := by
  fin_cases k <;> rfl

/-- A wide register counts up by one as a word. -/
theorem inc_pair (regs : Registers) (q : Pair) : regs.inc q.reg = regs.set q.reg (regs.get q.reg + 1) := by
  cases q <;> rfl

theorem dec_pair (regs : Registers) (q : Pair) : regs.dec q.reg = regs.set q.reg (regs.get q.reg - 1) := by
  cases q <;> rfl

/-- Writing a byte register and writing the flags are independent. -/
theorem write8_writeFlags (regs : Registers) (q : R8) (v : UInt8) (fl : Flags) :
    (regs.writeFlags fl).write8 q v = (regs.write8 q v).writeFlags fl := by
  cases q <;> rfl

/-- A byte register counts up by one with the increment flag rule. -/
theorem inc_r8 (regs : Registers) (q : R8) :
    regs.inc q.reg = (regs.write8 q (regs.read8 q + 1)).writeFlags (regs.flags.afterInc (regs.read8 q)) := by
  cases q <;> simp only [Registers.inc, R8.reg, Reg.isWide, Registers.get, Registers.inc8_eq, loByte,
    UInt8.toUInt8_toUInt16, Registers.set, Registers.read8, Registers.write8, Bool.false_eq_true,
    if_false, reduceCtorEq] <;> rfl

theorem dec_r8 (regs : Registers) (q : R8) :
    regs.dec q.reg = (regs.write8 q (regs.read8 q - 1)).writeFlags (regs.flags.afterDec (regs.read8 q)) := by
  cases q <;> simp only [Registers.dec, R8.reg, Reg.isWide, Registers.get, Registers.dec8_eq, loByte,
    UInt8.toUInt8_toUInt16, Registers.set, Registers.read8, Registers.write8, Bool.false_eq_true,
    if_false, reduceCtorEq] <;> rfl

end Tables

/-! ### The arithmetic of `Alu` against integer arithmetic -/

theorem toNat_ofInt8 (n : Int) : ((UInt8.ofInt n).toNat : Int) = n % 256 := by
  have h0 : 0 ≤ n % 256 := Int.emod_nonneg n (by decide)
  have h1 : n % 256 < 256 := Int.emod_lt_of_pos n (by decide)
  unfold UInt8.ofInt
  rw [UInt8.toNat_ofNat']
  omega

theorem ofInt8_eq_iff {n : Int} {b : UInt8} : UInt8.ofInt n = b ↔ n % 256 = b.toNat := by
  rw [← toNat_ofInt8]
  constructor
  · rintro rfl
    rfl
  · intro h
    exact UInt8.toNat.inj (by exact_mod_cast h)

theorem toNat_ofInt16 (n : Int) : ((UInt16.ofInt n).toNat : Int) = n % 65536 := by
  have h0 : 0 ≤ n % 65536 := Int.emod_nonneg n (by decide)
  have h1 : n % 65536 < 65536 := Int.emod_lt_of_pos n (by decide)
  unfold UInt16.ofInt
  rw [UInt16.toNat_ofNat']
  omega

theorem ofInt16_eq_iff {n : Int} {w : UInt16} : UInt16.ofInt n = w ↔ n % 65536 = w.toNat := by
  rw [← toNat_ofInt16]
  constructor
  · rintro rfl
    rfl
  · intro h
    exact UInt16.toNat.inj (by exact_mod_cast h)

theorem add_eq (a v : UInt8) (cin : Bool) : Alu.add a v cin = add a v (if cin then 1 else 0) := by
  have ha := a.toNat_lt
  have hv := v.toNat_lt
  cases cin <;>
  · simp only [Alu.add, add, Bool.false_eq_true, if_false, if_true, Prod.mk.injEq, Flags.mk.injEq]
    refine ⟨?_, ?_, trivial, ?_, ?_⟩
    · exact (ofInt8_eq_iff.2 (by rw [UInt8.toNat_ofNat']; omega)).symm
    · rw [Bool.eq_iff_iff, beq_iff_eq, decide_eq_true_iff, ofInt8_eq_iff, UInt8.toNat_zero]
      omega
    · rw [decide_eq_decide]
      omega
    · rw [decide_eq_decide]
      omega

theorem sub_eq (a v : UInt8) (bin : Bool) : Alu.sub a v bin = sub a v (if bin then 1 else 0) := by
  have ha := a.toNat_lt
  have hv := v.toNat_lt
  have hval : a - v - UInt8.ofNat (if bin then 1 else 0) =
      UInt8.ofInt (a.toNat - v.toNat - if bin then 1 else 0) := by
    refine (ofInt8_eq_iff.2 ?_).symm
    cases bin <;> simp only [UInt8.toNat_sub, UInt8.toNat_ofNat', Bool.false_eq_true, if_false,
      if_true] <;> omega
  simp only [Alu.sub, sub, hval, Prod.mk.injEq, Flags.mk.injEq, true_and]
  refine ⟨?_, ?_, ?_⟩
  · rw [Bool.eq_iff_iff, beq_iff_eq, decide_eq_true_iff]
  · cases bin <;> simp only [Bool.false_eq_true, if_false, if_true, decide_eq_decide] <;> omega
  · cases bin <;> simp only [Bool.false_eq_true, if_false, if_true, decide_eq_decide] <;> omega

/-- The accumulator operation the field `y` selects is entry `y` of `alu`. -/
theorem apply_ofIndex (k : Fin 8) (a v : UInt8) (f : Flags) :
    (AluOp.ofIndex (UInt8.ofNat k)).apply a v f = alu k a v f.carry := by
  fin_cases k
  · exact add_eq a v false
  · exact add_eq a v f.carry
  · exact sub_eq a v false
  · exact sub_eq a v f.carry
  · rfl
  · rfl
  · rfl
  · show (a, (Alu.sub a v false).2) = (a, (sub a v 0).2)
    rw [sub_eq]
    rfl

theorem inc_eq (v : UInt8) (f : Flags) : (v + 1, f.afterInc v) = inc v f := by
  have hv := v.toNat_lt
  have hval : v + 1 = UInt8.ofInt (v.toNat + 1) := by
    refine (ofInt8_eq_iff.2 ?_).symm
    simp only [UInt8.toNat_add, UInt8.toNat_one]
    omega
  simp only [Flags.afterInc, inc, hval, Prod.mk.injEq, true_and]
  -- Z agrees through the value; H is the carry out of the low nibble
  congr 1
  rw [Bool.eq_iff_iff, beq_iff_eq, decide_eq_true_iff, ← UInt8.toNat_inj, toNat_and_low]
  show v.toNat % 16 = 15 ↔ _
  omega

theorem dec_eq (v : UInt8) (f : Flags) : (v - 1, f.afterDec v) = dec v f := by
  have hv := v.toNat_lt
  have hval : v - 1 = UInt8.ofInt (v.toNat - 1) := by
    refine (ofInt8_eq_iff.2 ?_).symm
    simp only [UInt8.toNat_sub, UInt8.toNat_one]
    omega
  simp only [Flags.afterDec, dec, hval, Prod.mk.injEq, true_and]
  congr 1
  rw [Bool.eq_iff_iff, beq_iff_eq, decide_eq_true_iff, ← UInt8.toNat_inj, toNat_and_low]
  show v.toNat % 16 = 0 ↔ _
  omega

theorem inc16_eq (w : UInt16) : w + 1 = UInt16.ofInt (w.toNat + 1) := by
  refine (ofInt16_eq_iff.2 ?_).symm
  have := w.toNat_lt
  simp only [UInt16.toNat_add, UInt16.toNat_one]
  omega

theorem dec16_eq (w : UInt16) : w - 1 = UInt16.ofInt (w.toNat - 1) := by
  refine (ofInt16_eq_iff.2 ?_).symm
  have := w.toNat_lt
  simp only [UInt16.toNat_sub, UInt16.toNat_one]
  omega

theorem addHl_eq (hl v : UInt16) (f : Flags) : Alu.addHl hl v f = addHl hl v f := by
  have hval : hl + v = UInt16.ofInt (hl.toNat + v.toNat) := by
    refine (ofInt16_eq_iff.2 ?_).symm
    simp only [UInt16.toNat_add]
    omega
  simp only [Alu.addHl, addHl, hval, toNat_and_low12, Prod.mk.injEq, true_and]
  -- `x > 4095` and `x ≥ 4096` are one comparison
  rfl

/-- The low bits of a sign-extended displacement are the displacement's own,
and as a word it is the signed value mod 65536. -/
theorem signExtend_facts : ∀ d : UInt8,
    (Alu.signExtend d).toNat % 16 = d.toNat % 16 ∧ (Alu.signExtend d).toNat % 256 = d.toNat ∧
      ((Alu.signExtend d).toNat : Int) = signed d % 65536 := by
  rw [forall_uint8]
  decide +kernel

theorem addSigned_eq (sp : UInt16) (d : UInt8) : Alu.addSigned sp d = addSp sp d := by
  obtain ⟨h16, h256, hs⟩ := signExtend_facts d
  have hval : sp + Alu.signExtend d = UInt16.ofInt (sp.toNat + signed d) := by
    refine (ofInt16_eq_iff.2 ?_).symm
    simp only [UInt16.toNat_add]
    omega
  simp only [Alu.addSigned, addSp, hval, toNat_and_nibble16, toNat_and_byte16, h16, h256,
    Prod.mk.injEq, true_and]
  rfl

/-! ### Execution -/

section Execution

variable {σ : Type}

open Exec

/-- Executing the instruction at PC finishes, leaving the registers and the
bus `rb`. -/
def ExecutesTo (c : Console σ) (rb : Registers × Bus) : Prop :=
  ∃ n c', (Console.execute : Exec σ Nat).run c = .ok n c' ∧ c'.regs = rb.1 ∧ c'.bus = rb.2

theorem ExecutesTo.congr {c : Console σ} {rb rb' : Registers × Bus} (h : ExecutesTo c rb)
    (e : rb = rb') : ExecutesTo c rb' := e ▸ h

/-- An instruction that does not jump and finishes leaves its registers, with
PC moved past its operands, and its bus. -/
theorem executesTo_of_run {c : Console σ} {i : Instr} {e : Effect} {s : Console σ}
    (hd : decode (c.bus.readByte c.regs.pc) = some i) (hj : i.jumps = false)
    (hr : (i.run : Exec σ Effect).run { c with regs := { c.regs with pc := c.regs.pc + 1 } } = .ok e s) :
    ExecutesTo c (s.regs.advancePc (UInt16.ofNat i.operandLen), s.bus) := by
  simp only [ExecutesTo, Console.execute_eq, EStateM.run_bind, run_regs, run_read, hd, run_setPc, hr, hj,
    Bool.not_false, if_true, run_modifyRegs, EStateM.run_modify, Console.run_finish, EStateM.run_pure]
  exact ⟨_, _, rfl, rfl, rfl⟩

theorem run_ld (c : Console σ) (d s : Operand8) :
    ((Instr.ld d s).run : Exec σ Effect).run c = .ok .done (c.setOperand d (c.operand s)) := by
  simp only [Instr.run, EStateM.run_bind, run_readOp, run_writeOp, EStateM.run_pure]

theorem executesTo_ld (c : Console σ) (k j : Fin 8)
    (hd : decode (c.bus.readByte c.regs.pc) =
      some (.ld (Operand8.ofIndex (UInt8.ofNat k)) (Operand8.ofIndex (UInt8.ofNat j)))) :
    ExecutesTo c (setR { c.regs with pc := c.regs.pc + 1 + 0 } c.bus k (r c.regs c.bus j)) := by
  refine (executesTo_of_run hd rfl (run_ld _ _ _)).congr ?_
  rw [setOperand_ofIndex, operand_ofIndex]
  fin_cases k <;> rfl

theorem run_alu (c : Console σ) (op : AluOp) (s : Operand8) :
    ((Instr.alu op s).run : Exec σ Effect).run c = .ok .done
      { c with regs := { c.regs with a := (op.apply c.regs.a (c.operand s) c.regs.flags).1,
                                     f := (op.apply c.regs.a (c.operand s) c.regs.flags).2.toByte } } := by
  simp only [Instr.run, EStateM.run_bind, run_readOp, run_accumulate, EStateM.run_pure,
    Registers.accumulate_eq]

theorem executesTo_alu (c : Console σ) (k j : Fin 8)
    (hd : decode (c.bus.readByte c.regs.pc) =
      some (.alu (AluOp.ofIndex (UInt8.ofNat k)) (Operand8.ofIndex (UInt8.ofNat j)))) :
    ExecutesTo c
      ({ c.regs with
          pc := c.regs.pc + 1 + 0
          a := (alu k c.regs.a (r c.regs c.bus j) c.regs.flags.carry).1
          f := (alu k c.regs.a (r c.regs c.bus j) c.regs.flags.carry).2.toByte }, c.bus) := by
  refine (executesTo_of_run hd rfl (run_alu _ _ _)).congr ?_
  rw [operand_ofIndex, apply_ofIndex]
  rfl

theorem run_aluImm (c : Console σ) (op : AluOp) :
    ((Instr.aluImm op).run : Exec σ Effect).run c = .ok .done
      { c with regs := { c.regs with a := (op.apply c.regs.a (c.bus.readByte c.regs.pc) c.regs.flags).1,
                                     f := (op.apply c.regs.a (c.bus.readByte c.regs.pc) c.regs.flags).2.toByte } } := by
  simp only [Instr.run, EStateM.run_bind, run_imm8, run_accumulate, EStateM.run_pure, Registers.accumulate_eq]

theorem executesTo_aluImm (c : Console σ) (k : Fin 8)
    (hd : decode (c.bus.readByte c.regs.pc) = some (.aluImm (AluOp.ofIndex (UInt8.ofNat k)))) :
    ExecutesTo c
      ({ c.regs with
          pc := c.regs.pc + 1 + 1
          a := (alu k c.regs.a (c.bus.readByte (c.regs.pc + 1)) c.regs.flags.carry).1
          f := (alu k c.regs.a (c.bus.readByte (c.regs.pc + 1)) c.regs.flags.carry).2.toByte }, c.bus) := by
  refine (executesTo_of_run hd rfl (run_aluImm _ _)).congr ?_
  rw [apply_ofIndex]
  rfl

/-- `INC` sets the flags from the old value, then writes the value plus one. -/
theorem run_inc (c : Console σ) (o : Operand8) :
    ((Instr.inc o).run : Exec σ Effect).run c = .ok .done
      ({ c with regs := c.regs.writeFlags (c.regs.flags.afterInc (c.operand o)) }.setOperand o
        (c.operand o + 1)) := by
  cases o with
  | reg q =>
    simp only [Instr.run, EStateM.run_bind, run_modifyRegs, EStateM.run_pure, inc_r8]
    cases q <;> rfl
  | hlMem =>
    simp only [Instr.run, EStateM.run_bind, run_regs, run_read, run_modifyRegs, run_write,
      EStateM.run_pure, Registers.inc8_eq]
    rfl

theorem run_dec (c : Console σ) (o : Operand8) :
    ((Instr.dec o).run : Exec σ Effect).run c = .ok .done
      ({ c with regs := c.regs.writeFlags (c.regs.flags.afterDec (c.operand o)) }.setOperand o
        (c.operand o - 1)) := by
  cases o with
  | reg q =>
    simp only [Instr.run, EStateM.run_bind, run_modifyRegs, EStateM.run_pure, dec_r8]
    cases q <;> rfl
  | hlMem =>
    simp only [Instr.run, EStateM.run_bind, run_regs, run_read, run_modifyRegs, run_write,
      EStateM.run_pure, Registers.dec8_eq]
    rfl

theorem executesTo_inc (c : Console σ) (k : Fin 8)
    (hd : decode (c.bus.readByte c.regs.pc) = some (.inc (Operand8.ofIndex (UInt8.ofNat k)))) :
    ExecutesTo c
      (setR ({ c.regs with pc := c.regs.pc + 1 + 0 }.writeFlags (inc (r c.regs c.bus k) c.regs.flags).2)
        c.bus k (inc (r c.regs c.bus k) c.regs.flags).1) := by
  refine (executesTo_of_run hd rfl (run_inc _ _)).congr ?_
  rw [operand_ofIndex, ← inc_eq, setOperand_ofIndex]
  fin_cases k <;> rfl

theorem executesTo_dec (c : Console σ) (k : Fin 8)
    (hd : decode (c.bus.readByte c.regs.pc) = some (.dec (Operand8.ofIndex (UInt8.ofNat k)))) :
    ExecutesTo c
      (setR ({ c.regs with pc := c.regs.pc + 1 + 0 }.writeFlags (dec (r c.regs c.bus k) c.regs.flags).2)
        c.bus k (dec (r c.regs c.bus k) c.regs.flags).1) := by
  refine (executesTo_of_run hd rfl (run_dec _ _)).congr ?_
  rw [operand_ofIndex, ← dec_eq, setOperand_ofIndex]
  fin_cases k <;> rfl

theorem run_ldImm (c : Console σ) (o : Operand8) :
    ((Instr.ldImm o).run : Exec σ Effect).run c = .ok .done (c.setOperand o (c.bus.readByte c.regs.pc)) := by
  simp only [Instr.run, EStateM.run_bind, run_imm8, run_writeOp, EStateM.run_pure]

theorem executesTo_ldImm (c : Console σ) (k : Fin 8)
    (hd : decode (c.bus.readByte c.regs.pc) = some (.ldImm (Operand8.ofIndex (UInt8.ofNat k)))) :
    ExecutesTo c (setR { c.regs with pc := c.regs.pc + 1 + 1 } c.bus k (c.bus.readByte (c.regs.pc + 1))) := by
  refine (executesTo_of_run hd rfl (run_ldImm _ _)).congr ?_
  rw [setOperand_ofIndex]
  fin_cases k <;> rfl

theorem executesTo_ldPairImm (c : Console σ) (q : Fin 4) (hpc : ¬c.regs.pc + 1 = 0xFFFF)
    (hd : decode (c.bus.readByte c.regs.pc) = some (.ldPairImm (Pair.ofIndex (UInt8.ofNat q)))) :
    ExecutesTo c (setRp { c.regs with pc := c.regs.pc + 1 + 2 } q
      (word (c.bus.readByte (c.regs.pc + 2)) (c.bus.readByte (c.regs.pc + 1))), c.bus) := by
  have hr := Instr.run_ldPairImm (σ := σ) { c with regs := { c.regs with pc := c.regs.pc + 1 } }
    (Pair.ofIndex (UInt8.ofNat q))
  rw [if_neg hpc] at hr
  refine (executesTo_of_run hd rfl hr).congr ?_
  -- the operand word is the two bytes after the opcode, low byte first
  have h2 : c.regs.pc + 1 + 1 = c.regs.pc + 2 := by rw [UInt16.add_assoc]; rfl
  rw [set_ofIndex]
  simp only [Bus.loadWord, h2]
  fin_cases q <;> rfl

theorem run_incPair (c : Console σ) (pr : Pair) :
    ((Instr.incPair pr).run : Exec σ Effect).run c = .ok .done { c with regs := c.regs.inc pr.reg } := rfl

theorem run_decPair (c : Console σ) (pr : Pair) :
    ((Instr.decPair pr).run : Exec σ Effect).run c = .ok .done { c with regs := c.regs.dec pr.reg } := rfl

theorem executesTo_incPair (c : Console σ) (q : Fin 4)
    (hd : decode (c.bus.readByte c.regs.pc) = some (.incPair (Pair.ofIndex (UInt8.ofNat q)))) :
    ExecutesTo c
      (setRp { c.regs with pc := c.regs.pc + 1 + 0 } q (UInt16.ofInt ((rp c.regs q).toNat + 1)), c.bus) := by
  refine (executesTo_of_run hd rfl (run_incPair _ _)).congr ?_
  rw [inc_pair, get_ofIndex, set_ofIndex, ← inc16_eq]
  fin_cases q <;> rfl

theorem executesTo_decPair (c : Console σ) (q : Fin 4)
    (hd : decode (c.bus.readByte c.regs.pc) = some (.decPair (Pair.ofIndex (UInt8.ofNat q)))) :
    ExecutesTo c
      (setRp { c.regs with pc := c.regs.pc + 1 + 0 } q (UInt16.ofInt ((rp c.regs q).toNat - 1)), c.bus) := by
  refine (executesTo_of_run hd rfl (run_decPair _ _)).congr ?_
  rw [dec_pair, get_ofIndex, set_ofIndex, ← dec16_eq]
  fin_cases q <;> rfl

theorem run_addHl (c : Console σ) (pr : Pair) :
    ((Instr.addHl pr).run : Exec σ Effect).run c = .ok .done
      { c with regs := (c.regs.writeFlags (Alu.addHl c.regs.hl (c.regs.get pr.reg) c.regs.flags).2).setHl
                         (Alu.addHl c.regs.hl (c.regs.get pr.reg) c.regs.flags).1 } := by
  simp only [Instr.run, EStateM.run_bind, run_modifyRegs, EStateM.run_pure, Registers.aluAdd16Hl_eq]

theorem executesTo_addHl (c : Console σ) (q : Fin 4)
    (hd : decode (c.bus.readByte c.regs.pc) = some (.addHl (Pair.ofIndex (UInt8.ofNat q)))) :
    ExecutesTo c
      ((setRp { c.regs with pc := c.regs.pc + 1 + 0 } 2 (addHl c.regs.hl (rp c.regs q) c.regs.flags).1).writeFlags
        (addHl c.regs.hl (rp c.regs q) c.regs.flags).2, c.bus) := by
  refine (executesTo_of_run hd rfl (run_addHl _ _)).congr ?_
  rw [get_ofIndex, addHl_eq]
  rfl

theorem run_addSp (c : Console σ) :
    ((Instr.addSp).run : Exec σ Effect).run c = .ok .done
      { c with regs := { c.regs.writeFlags (Alu.addSigned c.regs.sp (c.bus.readByte c.regs.pc)).2 with
                           sp := (Alu.addSigned c.regs.sp (c.bus.readByte c.regs.pc)).1 } } := by
  simp only [Instr.run, EStateM.run_bind, run_imm8, run_modifyRegs, EStateM.run_pure,
    Registers.aluAdd16Signed_eq]

theorem run_ldHlSpOffset (c : Console σ) :
    ((Instr.ldHlSpOffset).run : Exec σ Effect).run c = .ok .done
      { c with regs := (c.regs.writeFlags (Alu.addSigned c.regs.sp (c.bus.readByte c.regs.pc)).2).setHl
                         (Alu.addSigned c.regs.sp (c.bus.readByte c.regs.pc)).1 } := by
  simp only [Instr.run, EStateM.run_bind, run_imm8, run_modifyRegs, EStateM.run_pure,
    Registers.aluAdd16Signed_eq]

theorem executesTo_addSp (c : Console σ) (hd : decode (c.bus.readByte c.regs.pc) = some .addSp) :
    ExecutesTo c
      ({ { c.regs with pc := c.regs.pc + 1 + 1 }.writeFlags (addSp c.regs.sp (c.bus.readByte (c.regs.pc + 1))).2 with
          sp := (addSp c.regs.sp (c.bus.readByte (c.regs.pc + 1))).1 }, c.bus) := by
  refine (executesTo_of_run hd rfl (run_addSp _)).congr ?_
  rw [addSigned_eq]
  rfl

theorem executesTo_ldHlSpOffset (c : Console σ)
    (hd : decode (c.bus.readByte c.regs.pc) = some .ldHlSpOffset) :
    ExecutesTo c
      ((setRp { c.regs with pc := c.regs.pc + 1 + 1 } 2 (addSp c.regs.sp (c.bus.readByte (c.regs.pc + 1))).1).writeFlags
        (addSp c.regs.sp (c.bus.readByte (c.regs.pc + 1))).2, c.bus) := by
  refine (executesTo_of_run hd rfl (run_ldHlSpOffset _)).congr ?_
  rw [addSigned_eq]
  rfl

/-- Whenever the x/y/z reading gives a result for the opcode at PC, executing
the instruction there gives it. -/
theorem executesTo_of_step (c : Console σ) {rb : Registers × Bus}
    (h : step (c.bus.readByte c.regs.pc) c.regs c.bus = some rb) : ExecutesTo c rb := by
  set op := c.bus.readByte c.regs.pc
  unfold step at h
  -- one case per block of `step`: its decoding fact feeds its family lemma
  split at h
  next hx =>
    split_ifs at h with hne
    obtain rfl := Option.some.inj h
    exact executesTo_ld c _ _ (decode_x1 op hx hne)
  next hx =>
    obtain rfl := Option.some.inj h
    exact executesTo_alu c _ _ (decode_x2 op hx)
  next hx hz =>
    obtain rfl := Option.some.inj h
    exact executesTo_aluImm c _ (decode_x3 op hx hz)
  next hx hz =>
    obtain rfl := Option.some.inj h
    exact executesTo_inc c _ ((decode_x0 op hx).1 hz)
  next hx hz =>
    obtain rfl := Option.some.inj h
    exact executesTo_dec c _ ((decode_x0 op hx).2.1 hz)
  next hx hz =>
    obtain rfl := Option.some.inj h
    exact executesTo_ldImm c _ ((decode_x0 op hx).2.2.1 hz)
  next hx hz hq =>
    split_ifs at h with hpc
    obtain rfl := Option.some.inj h
    exact executesTo_ldPairImm c _ hpc ((decode_x0 op hx).2.2.2.1 hz hq)
  next hx hz hq =>
    obtain rfl := Option.some.inj h
    exact executesTo_incPair c _ ((decode_x0 op hx).2.2.2.2.1 hz hq)
  next hx hz hq =>
    obtain rfl := Option.some.inj h
    exact executesTo_addHl c _ ((decode_x0 op hx).2.2.2.2.2.1 hz hq)
  next hx hz hq =>
    obtain rfl := Option.some.inj h
    exact executesTo_decPair c _ ((decode_x0 op hx).2.2.2.2.2.2 hz hq)
  next hx hz =>
    split_ifs at h with h5 h7
    · obtain rfl := Option.some.inj h
      exact executesTo_addSp c ((decode_addSp op hx hz).1 h5)
    · obtain rfl := Option.some.inj h
      exact executesTo_ldHlSpOffset c ((decode_addSp op hx hz).2 h7)
  next => cases h

end Execution

/-- The x/y/z reading gives a result for every listed opcode, but for
`LD rp,d16` whose operand word would pass 0xFFFF. -/
theorem step_isSome (op : UInt8) (regs : Registers) (bus : Bus) (hl : Listed op)
    (htop : ¬(op.toNat % 16 = 1 ∧ op.toNat < 0x40 ∧ regs.pc + 1 = 0xFFFF)) :
    (step op regs bus).isSome := by
  unfold step
  split
  next hx => rw [if_neg (listed_x1 op hl hx)]; rfl
  next => rfl
  next => rfl
  next => rfl
  next => rfl
  next => rfl
  next hx hz hq =>
    have hpc : ¬regs.pc + 1 = 0xFFFF := fun h => htop ⟨by omega, by omega, h⟩
    rw [if_neg hpc]
    rfl
  next => rfl
  next => rfl
  next => rfl
  next hx hz =>
    rcases listed_x3_z0 op hl hx hz with h5 | h7
    · rw [h5]; rfl
    · rw [h7]; rfl
  next _ _ _ hld halu haluImm hinc hdec hldImm haddSp hldPair hincPair haddHl hdecPair =>
    -- no block took the opcode, yet `listed_blocks` puts it in one
    exfalso
    rcases listed_blocks op hl with hx | hx | ⟨hx, hz | hz⟩ | ⟨hx, hz | hz | hz | hz | hz⟩
    · exact hld hx
    · exact halu hx
    · exact haluImm hx hz
    · exact haddSp hx hz
    · exact hinc hx hz
    · exact hdec hx hz
    · exact hldImm hx hz
    · rcases Nat.mod_two_eq_zero_or_one (op.toNat / 8) with hq | hq
      · exact hldPair hx hz hq
      · exact haddHl hx hz hq
    · rcases Nat.mod_two_eq_zero_or_one (op.toNat / 8) with hq | hq
      · exact hincPair hx hz hq
      · exact hdecPair hx hz hq

/-- The opcode table refines the x/y/z reading on the regular blocks: on every
console whose opcode at PC is listed, executing the instruction there finishes
with the registers and the bus that `step` gives. The one exception is
`LD rp,d16` with its operand word past 0xFFFF, which faults instead. -/
theorem execute_refines_regular {σ : Type} (c : Console σ) (hl : Listed (c.bus.readByte c.regs.pc))
    (htop : ¬((c.bus.readByte c.regs.pc).toNat % 16 = 1 ∧ (c.bus.readByte c.regs.pc).toNat < 0x40 ∧
      c.regs.pc + 1 = 0xFFFF)) :
    ∃ rb, step (c.bus.readByte c.regs.pc) c.regs c.bus = some rb ∧ ExecutesTo c rb := by
  obtain ⟨rb, hs⟩ := Option.isSome_iff_exists.1 (step_isSome _ c.regs c.bus hl htop)
  exact ⟨rb, hs, executesTo_of_step c hs⟩

/-- A console about to run `ADD A,B` at 0xC000 with A = 0x3A and B = 0xC6. -/
def addWraps : Console Unit :=
  { Console.new Config.standard () with
    regs := { Registers.powerOn with a := 0x3A, b := 0xC6, pc := 0xC000 }
    bus := (Bus.new .dmg).writeByte 0xC000 0x80 }

/-- The sum wraps to zero: A = 0 with Z, H and C set (F = 0xB0), and PC one
past the opcode. -/
theorem add_wraps_to_zero :
    ExecutesTo addWraps
      ({ addWraps.regs with
          pc := 0xC001
          a := 0
          f := 0xB0 },
        addWraps.bus) := by
  have hbus : addWraps.bus = (Bus.new .dmg).writeByte 0xC000 0x80 := rfl
  have hpc : addWraps.regs.pc = 0xC000 := rfl
  have hop : addWraps.bus.readByte addWraps.regs.pc = 0x80 := by
    rw [hbus, hpc]
    exact Bus.readByte_writeByte_self _ _ (by decide)
  obtain ⟨rb, hs, he⟩ := execute_refines_regular addWraps (by rw [hop]; decide) (by rw [hop]; decide)
  rw [hop] at hs
  obtain rfl := Option.some.inj hs
  exact he

end Regular
end Dmg
