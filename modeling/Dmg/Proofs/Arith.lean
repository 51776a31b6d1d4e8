import Dmg.Proofs.Faults
/-!
# Flags bit by bit, and the arithmetic in whole numbers

F is a byte, written whole (`Registers.setF`), cleared (`Registers.clearFlags`)
or one flag bit at a time (`Registers.setFlag`). What a sequence of flag
writes does is said once here, through the operation that writes all four
flag bits and leaves F's low nibble alone (`Registers.writeFlags`): setting one
flag is writing the flags with that one changed
(`Registers.setFlag_eq_writeFlags`), a second write of the flags replaces the
first (`Registers.writeFlags_writeFlags`), and writing after clearing leaves
exactly the spelled-out flags (`Registers.writeFlags_clearFlags`).

The arithmetic of `Dmg.Cpu.Alu` computes its flags on the bits of nibble sums
and on signed 16-bit differences. Its readings in exact natural-number
arithmetic are the functions of namespace `Alu` here (`Alu.add`, `Alu.sub`,
`Alu.daa`, `Alu.addHl`, `Alu.addSigned`, with `AluOp.apply` and
`Shift.apply`): an addition carries when the true sum leaves the byte or the
nibble, a subtraction borrows when the true difference would go below zero.
Each register method is that reading written into the registers
(`Registers.aluAdd_eq`, `Registers.aluSub_eq`, `Registers.accumulate_eq`,
`Registers.aluDaa_eq`, `Registers.aluAdd16Hl_eq`, `Registers.aluAdd16Signed_eq`,
`Registers.aluRotate_eq`, `Registers.inc8_eq`, `Registers.dec8_eq`).

Key definitions: `Registers.writeFlags`, `Alu.add`, `Alu.sub`, `AluOp.apply`,
`Alu.daa`, `Alu.addHl`, `Alu.addSigned`, `Shift.apply`.
-/

namespace Dmg

/-! ### The four flags, bit by bit -/

namespace Registers

/-- The four flags written into F bit by bit, its low nibble left as it was. -/
def writeFlags (r : Registers) (fl : Flags) : Registers := { r with f := fl.toByte ||| r.f &&& 0x0F }

/-- Setting or clearing one bit of a byte is writing its flags with that flag
changed, the low nibble kept. -/
theorem setBit_eq (fl : Flag) (v : Bool) : ∀ b : UInt8,
    (if v then b ||| fl.mask else b &&& ~~~fl.mask) = ((Flags.ofByte b).set fl v).toByte ||| b &&& 0x0F := by
  cases fl <;> cases v <;> (rw [forall_uint8]; decide +kernel)

/-- Spelled-out flags over a low nibble read back as the flags, and keep the
nibble. -/
theorem toByte_or_low (fl : Flags) : ∀ b : UInt8,
    Flags.ofByte (fl.toByte ||| b &&& 0x0F) = fl ∧ (fl.toByte ||| b &&& 0x0F) &&& 0x0F = b &&& 0x0F := by
  obtain ⟨z, n, h, c⟩ := fl
  cases z <;> cases n <;> cases h <;> cases c <;> (rw [forall_uint8]; decide +kernel)

/-- A byte is its own flags over its own low nibble. -/
theorem toByte_ofByte_or_low : ∀ b : UInt8, (Flags.ofByte b).toByte ||| b &&& 0x0F = b := by
  rw [forall_uint8]
  decide +kernel

theorem setFlag_eq_writeFlags (r : Registers) (fl : Flag) (v : Bool) :
    r.setFlag fl v = r.writeFlags (r.flags.set fl v) := by
  rw [setFlag, setBit_eq]
  rfl

@[simp] theorem flags_writeFlags (r : Registers) (fl : Flags) : (r.writeFlags fl).flags = fl :=
  (toByte_or_low fl r.f).1

@[simp] theorem flags_setFlag (r : Registers) (fl : Flag) (v : Bool) : (r.setFlag fl v).flags = r.flags.set fl v := by
  rw [setFlag_eq_writeFlags, flags_writeFlags]

@[simp] theorem writeFlags_writeFlags (r : Registers) (fl fl' : Flags) :
    (r.writeFlags fl).writeFlags fl' = r.writeFlags fl' := by
  simp only [writeFlags, (toByte_or_low fl r.f).2]

@[simp] theorem writeFlags_flags (r : Registers) : r.writeFlags r.flags = r := by
  simp only [writeFlags, flags, toByte_ofByte_or_low]

/-- Writing the flags into a cleared F spells them out, with a clear low
nibble. -/
@[simp] theorem writeFlags_clearFlags (r : Registers) (fl : Flags) :
    r.clearFlags.writeFlags fl = { r with f := fl.toByte } := by
  simp only [writeFlags, clearFlags, UInt8.zero_and, UInt8.or_zero]

@[simp] theorem flags_clearFlags (r : Registers) : r.clearFlags.flags = Flags.clear := by
  simp only [clearFlags, flags]
  decide

/-! The flags are read from F alone, so updates of the other registers keep
them. -/

@[simp] theorem flags_with_pc (r : Registers) (p : UInt16) : { r with pc := p }.flags = r.flags := rfl

@[simp] theorem flags_with_sp (r : Registers) (p : UInt16) : { r with sp := p }.flags = r.flags := rfl

@[simp] theorem flags_with_a (r : Registers) (v : UInt8) : { r with a := v }.flags = r.flags := rfl

@[simp] theorem flags_setHl (r : Registers) (v : UInt16) : (r.setHl v).flags = r.flags := rfl

@[simp] theorem pc_writeFlags (r : Registers) (fl : Flags) : (r.writeFlags fl).pc = r.pc := rfl

@[simp] theorem sp_writeFlags (r : Registers) (fl : Flags) : (r.writeFlags fl).sp = r.sp := rfl

@[simp] theorem a_writeFlags (r : Registers) (fl : Flags) : (r.writeFlags fl).a = r.a := rfl

/-- Writing flags leaves the low nibble of F. -/
@[simp] theorem low_writeFlags (r : Registers) (fl : Flags) : (r.writeFlags fl).f &&& 0x0F = r.f &&& 0x0F :=
  (toByte_or_low fl r.f).2

end Registers

/-! ### Low bits as numbers -/

theorem toNat_and_low (v : UInt8) : (v &&& 0x0F).toNat = v.toNat % 16 := by
  rw [UInt8.toNat_and]
  exact Nat.and_two_pow_sub_one_eq_mod v.toNat 4

theorem toNat_and_low12 (w : UInt16) : (w &&& 0x0FFF).toNat = w.toNat % 4096 := by
  rw [UInt16.toNat_and]
  exact Nat.and_two_pow_sub_one_eq_mod w.toNat 12

theorem toNat_and_nibble16 (w : UInt16) : (w &&& 0x0F).toNat = w.toNat % 16 := by
  rw [UInt16.toNat_and]
  exact Nat.and_two_pow_sub_one_eq_mod w.toNat 4

theorem toNat_and_byte16 (w : UInt16) : (w &&& 0xFF).toNat = w.toNat % 256 := by
  rw [UInt16.toNat_and]
  exact Nat.and_two_pow_sub_one_eq_mod w.toNat 8

/-- Bit 4 of a number below 32 is set exactly when it is 16 or more. -/
theorem bit4_eq : ∀ x : UInt8, x.toNat < 32 → (x &&& 0x10 != 0) = decide (x.toNat > 15) := by
  rw [forall_uint8]
  decide +kernel

/-! ### The arithmetic in whole numbers -/

namespace Alu

/-- `a + v + carryIn` on the byte, with its flags: Z from the result, N clear,
H when the low nibbles overflow, C when the sum passes 255. -/
def add (a v : UInt8) (carryIn : Bool) : UInt8 × Flags :=
  let cin := if carryIn then 1 else 0
  let sum := a.toNat + v.toNat + cin
  (UInt8.ofNat sum,
    { zero := sum % 256 == 0, subtract := false,
      halfCarry := a.toNat % 16 + v.toNat % 16 + cin > 15, carry := sum > 255 })

/-- `a - v - borrowIn` on the byte, with its flags: Z from the result, N set,
H when the low nibble borrows, C when the difference goes below zero. -/
def sub (a v : UInt8) (borrowIn : Bool) : UInt8 × Flags :=
  let bin := if borrowIn then 1 else 0
  let r := a - v - UInt8.ofNat bin
  (r,
    { zero := r == 0, subtract := true,
      halfCarry := a.toNat % 16 < v.toNat % 16 + bin, carry := a.toNat < v.toNat + bin })

end Alu

/-- An accumulator operation on the accumulator `a` and the operand `v`: the
new accumulator and the new flags. `CP` leaves the accumulator as it was. -/
def AluOp.apply : AluOp → UInt8 → UInt8 → Flags → UInt8 × Flags
  | .add, a, v, _ => Alu.add a v false
  | .adc, a, v, f => Alu.add a v f.carry
  | .sub, a, v, _ => Alu.sub a v false
  | .sbc, a, v, f => Alu.sub a v f.carry
  | .and, a, v, _ => (a &&& v, ⟨a &&& v == 0, false, true, false⟩)
  | .xor, a, v, _ => (a ^^^ v, ⟨a ^^^ v == 0, false, false, false⟩)
  | .or, a, v, _ => (a ||| v, ⟨a ||| v == 0, false, false, false⟩)
  | .cp, a, v, _ => (a, (Alu.sub a v false).2)

namespace Alu

/-- Decimal adjust: the correction is 0x60 when C is set and 0x06 when H is
set; after an addition also 0x06 when the low nibble is above 9 and 0x60 when
the byte is above 0x99. It is added after an addition and subtracted after a
subtraction. C is set when the correction includes 0x60, H is cleared, Z comes
from the result and N is kept. -/
def daa (a : UInt8) (f : Flags) : UInt8 × Flags :=
  let base : UInt8 := (if f.carry then 0x60 else 0) ||| (if f.halfCarry then 0x06 else 0)
  let adjust : UInt8 :=
    if f.subtract then base
    else base ||| (if a &&& 0x0F > 0x09 then 0x06 else 0) ||| (if a > 0x99 then 0x60 else 0)
  let r := if f.subtract then a - adjust else a + adjust
  (r, { f with carry := adjust ≥ 0x60, halfCarry := false, zero := r == 0 })

/-- `HL + v`: N clear, H when bits 0 to 11 overflow, C when the sum passes
0xFFFF; Z is kept. -/
def addHl (hl v : UInt16) (f : Flags) : UInt16 × Flags :=
  (hl + v,
    { f with subtract := false,
             halfCarry := (hl &&& 0x0FFF).toNat + (v &&& 0x0FFF).toNat > 0x0FFF,
             carry := hl.toNat + v.toNat > 0xFFFF })

/-- `base` plus the signed displacement `d`: Z and N clear, H from a carry out
of bit 3 and C from a carry out of bit 7 of the unsigned low-byte sum. -/
def addSigned (base : UInt16) (d : UInt8) : UInt16 × Flags :=
  let off := signExtend d
  (base + off,
    { zero := false, subtract := false,
      halfCarry := (base &&& 0x0F).toNat + (off &&& 0x0F).toNat > 0x0F,
      carry := (base &&& 0xFF).toNat + (off &&& 0xFF).toNat > 0xFF })

end Alu

/-- Shift the byte `v`: the result, with Z from the result, N and H clear and C
the bit shifted out. -/
def Shift.apply (s : Shift) (v : UInt8) (f : Flags) : UInt8 × Flags :=
  let shifted := s.result v f.carry
  (shifted.1, ⟨shifted.1 == 0, false, false, shifted.2⟩)

/-! ### Signed differences -/

/-- A signed difference of two bytes and a carry is negative exactly when the
whole-number difference would be. -/
theorem int16_diff_neg {x y : Nat} (hx : x < 256) (hy : y < 256) (b : Bool) :
    Int16.ofNat x - Int16.ofNat y - (if b then 1 else 0 : Int16) < 0 ↔ x < y + if b then 1 else 0 := by
  have hx' : x < 2 ^ 15 := by omega
  have hy' : y < 2 ^ 15 := by omega
  cases b <;>
  · simp only [Int16.lt_iff_toInt_lt, Int16.toInt_sub, Int16.toInt_ofNat_of_lt hx',
      Int16.toInt_ofNat_of_lt hy', Bool.false_eq_true, if_false, if_true, Int16.toInt_zero, Int16.toInt_one,
      Int.bmod]
    split <;> omega

/-- The low byte of a signed difference of bytes is their wrapped difference. -/
theorem int16_diff_low (x y : UInt8) (b : Bool) :
    (Int16.ofNat x.toNat - Int16.ofNat y.toNat - (if b then 1 else 0 : Int16)).toUInt16.toUInt8 =
      x - y - UInt8.ofNat (if b then 1 else 0) := by
  have h0 : (Int16.toUInt16 0).toUInt8 = 0 := by decide
  have h1 : (Int16.toUInt16 1).toUInt8 = 1 := by decide
  cases b <;>
  · simp only [Int16.toUInt16_sub, Int16.toUInt16_ofNat', UInt16.toUInt8_sub, Bool.false_eq_true, if_false,
      if_true, h0, h1]
    apply UInt8.toNat.inj
    simp

/-! ### Each operation is its reading, written into the registers -/

namespace Registers

/-- Clearing F and then setting flags one at a time spells out the flags set. -/
theorem setFlags_clearFlags (r : Registers) (fl : Flag) (v : Bool) (g : Flags) :
    (r.clearFlags.writeFlags g).setFlag fl v = { r with f := (g.set fl v).toByte } := by
  rw [setFlag_eq_writeFlags, flags_writeFlags, writeFlags_writeFlags, writeFlags_clearFlags]

theorem aluAdd_eq (r : Registers) (v : UInt8) (c : Bool) :
    r.aluAdd v c = { r with a := (Alu.add r.a v (c && r.flags.carry)).1,
                            f := (Alu.add r.a v (c && r.flags.carry)).2.toByte } := by
  have ha := r.a.toNat_lt
  have hv := v.toNat_lt
  simp only [aluAdd, Alu.add]
  generalize (c && r.flags.carry) = b
  simp only [setFlag_eq_writeFlags, flags_writeFlags, flags_clearFlags, writeFlags_writeFlags]
  rw [writeFlags_clearFlags]
  -- the carry in, the full sum and the nibble sum, as numbers
  have hcin : (if b then 1 else 0 : UInt8).toNat = if b then 1 else 0 := by cases b <;> rfl
  have hfull : (r.a.toUInt16 + v.toUInt16 + (if b then 1 else 0 : UInt8).toUInt16).toNat =
      r.a.toNat + v.toNat + if b then 1 else 0 := by
    simp only [UInt16.toNat_add, UInt8.toNat_toUInt16, hcin]
    split <;> omega
  have hhalf : ((r.a &&& 0x0F) + (v &&& 0x0F) + (if b then 1 else 0 : UInt8)).toNat =
      r.a.toNat % 16 + v.toNat % 16 + if b then 1 else 0 := by
    simp only [UInt8.toNat_add, toNat_and_low, hcin]
    split <;> omega
  have hres : (r.a.toUInt16 + v.toUInt16 + (if b then 1 else 0 : UInt8).toUInt16).toUInt8 =
      UInt8.ofNat (r.a.toNat + v.toNat + if b then 1 else 0) := by
    apply UInt8.toNat.inj
    rw [UInt16.toNat_toUInt8, hfull, UInt8.toNat_ofNat']
  have hz : (UInt8.ofNat (r.a.toNat + v.toNat + if b then 1 else 0) == 0) =
      ((r.a.toNat + v.toNat + if b then 1 else 0) % 256 == 0) := by
    rw [Bool.eq_iff_iff, beq_iff_eq, beq_iff_eq, ← UInt8.toNat_inj, UInt8.toNat_ofNat', UInt8.toNat_zero]
  -- H is bit 4 of the nibble sum, C the sum passing 0xFF
  have hh := bit4_eq ((r.a &&& 0x0F) + (v &&& 0x0F) + (if b then 1 else 0 : UInt8))
    (by rw [hhalf]; split <;> omega)
  have hc : decide (r.a.toUInt16 + v.toUInt16 + (if b then 1 else 0 : UInt8).toUInt16 > 0xFF) =
      decide (r.a.toNat + v.toNat + (if b then 1 else 0) > 255) := by
    rw [decide_eq_decide, GT.gt, UInt16.lt_iff_toNat_lt, hfull]
    rfl
  rw [hhalf] at hh
  simp only [Flags.set, Flags.clear, hres, hz, hh, hc]

theorem aluSub_eq (r : Registers) (v : UInt8) (c : Bool) :
    r.aluSub v c = { r with a := (Alu.sub r.a v (c && r.flags.carry)).1,
                            f := (Alu.sub r.a v (c && r.flags.carry)).2.toByte } := by
  simp only [aluSub, Alu.sub]
  generalize (c && r.flags.carry) = b
  simp only [setFlag_eq_writeFlags, flags_writeFlags, flags_clearFlags, writeFlags_writeFlags]
  rw [writeFlags_clearFlags]
  have hla : (r.a &&& 0x0F).toNat < 256 := by rw [toNat_and_low]; omega
  have hlv : (v &&& 0x0F).toNat < 256 := by rw [toNat_and_low]; omega
  -- H and C are the signs of the nibble and byte differences
  have hH := int16_diff_neg hla hlv b
  have hC := int16_diff_neg r.a.toNat_lt v.toNat_lt b
  simp only [int16_diff_low, Flags.set, Flags.clear, hH, hC]
  simp only [toNat_and_low]

/-- `CP` is the flags of `SUB`, with A kept. -/
theorem aluCp_eq (r : Registers) (v : UInt8) :
    r.aluCp v = { r with f := (Alu.sub r.a v false).2.toByte } := by
  simp only [aluCp, Alu.sub, setFlag_eq_writeFlags, flags_writeFlags, flags_clearFlags, writeFlags_writeFlags]
  rw [writeFlags_clearFlags]
  have hz : (r.a == v) = (r.a - v - UInt8.ofNat (if false then 1 else 0) == 0) := by
    rw [Bool.eq_iff_iff, beq_iff_eq, beq_iff_eq]
    show r.a = v ↔ r.a - v - 0 = 0
    have := r.a.toNat_lt
    have := v.toNat_lt
    rw [UInt8.sub_zero, ← UInt8.toNat_inj, ← UInt8.toNat_inj, UInt8.toNat_sub, UInt8.toNat_zero]
    omega
  simp only [Flags.set, Flags.clear, hz, UInt8.lt_iff_toNat_lt, toNat_and_low, Bool.false_eq_true, if_false,
    Nat.add_zero]

theorem accumulate_eq (r : Registers) (op : AluOp) (v : UInt8) :
    r.accumulate op v = { r with a := (op.apply r.a v r.flags).1, f := (op.apply r.a v r.flags).2.toByte } := by
  cases op with
  | add => simpa [accumulate, AluOp.apply] using aluAdd_eq r v false
  | adc => simpa [accumulate, AluOp.apply] using aluAdd_eq r v true
  | sub => simpa [accumulate, AluOp.apply] using aluSub_eq r v false
  | sbc => simpa [accumulate, AluOp.apply] using aluSub_eq r v true
  | cp => exact aluCp_eq r v
  | and | xor | or =>
    simp only [accumulate, AluOp.apply, aluAnd, aluXor, aluOr, setFlag_eq_writeFlags, flags_writeFlags,
      flags_clearFlags, writeFlags_writeFlags]
    rw [writeFlags_clearFlags]
    rfl

theorem aluDaa_eq (r : Registers) :
    r.aluDaa = { r.writeFlags (Alu.daa r.a r.flags).2 with a := (Alu.daa r.a r.flags).1 } := by
  simp only [aluDaa, Alu.daa, setFlag_eq_writeFlags, flags_writeFlags, writeFlags_writeFlags, Flags.set]

/-- Two parts of words, each at most `m`, sum past `m` exactly when their
numbers do. -/
theorem decide_add_gt {x y m : UInt16} (hx : x.toNat ≤ m.toNat) (hy : y.toNat ≤ m.toNat)
    (hm : m.toNat < 32768) : decide (x + y > m) = decide (x.toNat + y.toNat > m.toNat) := by
  rw [decide_eq_decide, GT.gt, GT.gt, UInt16.lt_iff_toNat_lt, UInt16.toNat_add]
  omega

theorem aluAdd16Hl_eq (r : Registers) (v : UInt16) :
    r.aluAdd16Hl v = (r.writeFlags (Alu.addHl r.hl v r.flags).2).setHl (Alu.addHl r.hl v r.flags).1 := by
  have h12 := decide_add_gt (x := r.hl &&& 0x0FFF) (y := v &&& 0x0FFF) (m := 0x0FFF)
    (by rw [toNat_and_low12]; show _ ≤ 4095; omega) (by rw [toNat_and_low12]; show _ ≤ 4095; omega)
    (by decide)
  -- the carry out of bit 15 is the 32-bit sum passing 0xFFFF
  have h32 : decide (r.hl.toUInt32 + v.toUInt32 > 0xFFFF) = decide (r.hl.toNat + v.toNat > 0xFFFF) := by
    have := r.hl.toNat_lt
    have := v.toNat_lt
    rw [decide_eq_decide, GT.gt, UInt32.lt_iff_toNat_lt, UInt32.toNat_add, UInt16.toNat_toUInt32,
      UInt16.toNat_toUInt32]
    show 65535 < _ ↔ 65535 < _
    omega
  simp only [aluAdd16Hl, Alu.addHl, setFlag_eq_writeFlags, flags_writeFlags, writeFlags_writeFlags, Flags.set,
    h12, h32]
  rfl

theorem aluAdd16Signed_eq (r : Registers) (base : UInt16) (d : UInt8) :
    r.aluAdd16Signed base d = ((Alu.addSigned base d).1, r.writeFlags (Alu.addSigned base d).2) := by
  have h4 := decide_add_gt (x := base &&& 0x000F) (y := Alu.signExtend d &&& 0x000F) (m := 0x000F)
    (by rw [toNat_and_nibble16]; show _ ≤ 15; omega) (by rw [toNat_and_nibble16]; show _ ≤ 15; omega)
    (by decide)
  have h8 := decide_add_gt (x := base &&& 0x00FF) (y := Alu.signExtend d &&& 0x00FF) (m := 0x00FF)
    (by rw [toNat_and_byte16]; show _ ≤ 255; omega) (by rw [toNat_and_byte16]; show _ ≤ 255; omega)
    (by decide)
  simp only [aluAdd16Signed, Alu.addSigned, setFlag_eq_writeFlags, flags_writeFlags, writeFlags_writeFlags,
    Flags.set, h4, h8]
  rfl

theorem aluRotate_eq (r : Registers) (s : Shift) (v : UInt8) :
    r.aluRotate s v = ((s.apply v r.flags).1, { r with f := (s.apply v r.flags).2.toByte }) := by
  simp only [aluRotate, Shift.apply, setFlag_eq_writeFlags, flags_writeFlags, flags_clearFlags,
    writeFlags_writeFlags]
  rw [writeFlags_clearFlags]
  rfl

theorem inc8_eq (r : Registers) (v : UInt8) : r.inc8 v = (v + 1, r.writeFlags (r.flags.afterInc v)) := by
  simp only [inc8, setFlag_eq_writeFlags, flags_writeFlags, writeFlags_writeFlags, Flags.set, Flags.afterInc]

theorem dec8_eq (r : Registers) (v : UInt8) : r.dec8 v = (v - 1, r.writeFlags (r.flags.afterDec v)) := by
  simp only [dec8, setFlag_eq_writeFlags, flags_writeFlags, writeFlags_writeFlags, Flags.set, Flags.afterDec]

end Registers
end Dmg
