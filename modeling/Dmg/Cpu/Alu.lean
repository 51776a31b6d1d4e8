import Dmg.Cpu.Registers
/-!
# Arithmetic and logic

The processor's arithmetic as methods of the register file, each computing
its result and its flags the way the hardware description does: the 8-bit
additions on the nibbles and the 16-bit sum (`Registers.aluAdd`), the
subtractions on signed 16-bit differences (`Registers.aluSub`), the logic
operations and the compare, decimal adjust (`Registers.aluDaa`), the 16-bit
additions (`Registers.aluAdd16Hl`, `Registers.aluAdd16Signed`) and the shared
shift and rotate core (`Registers.aluRotate`).

The accumulator operations, the shifts and `DAA` clear F and then set the
flags they define; the 16-bit additions and `DAA`'s own updates set their
flags one bit at a time and leave the rest of F as it was. Their readings in
exact natural-number arithmetic are lemmas, in `Dmg.Proofs.Arith`.

Key definitions: `AluOp`, `Registers.accumulate`, `Registers.aluAdd`,
`Registers.aluSub`, `Registers.aluDaa`, `Registers.aluAdd16Hl`,
`Registers.aluAdd16Signed`, `Shift`, `Registers.aluRotate`.
-/

namespace Dmg

/-- The eight accumulator operations, in opcode order. -/
inductive AluOp where
  | add
  | adc
  | sub
  | sbc
  | and
  | xor
  | or
  | cp
deriving DecidableEq, Repr

/-- The mnemonic text before the operand: `ADD A,`, `SUB `, and so on. -/
def AluOp.lead : AluOp → String
  | .add => "ADD A,"
  | .adc => "ADC A,"
  | .sub => "SUB "
  | .sbc => "SBC A,"
  | .and => "AND "
  | .xor => "XOR "
  | .or => "OR "
  | .cp => "CP "

/-- The eight shifts and rotates of the `CB` page, in opcode order. -/
inductive Shift where
  | rlc
  | rrc
  | rl
  | rr
  | sla
  | sra
  | swap
  | srl
deriving DecidableEq, Repr

namespace Shift

/-- The shift for the three-bit field `y` of a `CB` opcode. -/
def ofIndex (y : UInt8) : Shift :=
  match y &&& 7 with
  | 0 => rlc
  | 1 => rrc
  | 2 => rl
  | 3 => rr
  | 4 => sla
  | 5 => sra
  | 6 => swap
  | _ => srl

/-- The shift's mnemonic. -/
def name : Shift → String
  | rlc => "RLC"
  | rrc => "RRC"
  | rl => "RL"
  | rr => "RR"
  | sla => "SLA"
  | sra => "SRA"
  | swap => "SWAP"
  | srl => "SRL"

/-- Shift the byte `v`, with `carryIn` the old carry flag: the result and the
bit shifted out (false for `SWAP`). -/
def result : Shift → UInt8 → Bool → UInt8 × Bool
  | rlc, v, _ => ((v <<< 1) ||| (v >>> 7), v &&& 0x80 != 0)
  | rrc, v, _ => ((v >>> 1) ||| (v <<< 7), v &&& 0x01 != 0)
  | rl, v, c => ((v <<< 1) ||| (if c then 1 else 0), v &&& 0x80 != 0)
  | rr, v, c => ((v >>> 1) ||| (if c then 0x80 else 0), v &&& 0x01 != 0)
  | sla, v, _ => (v <<< 1, v &&& 0x80 != 0)
  | sra, v, _ => ((v >>> 1) ||| (v &&& 0x80), v &&& 0x01 != 0)
  | swap, v, _ => ((v <<< 4) ||| (v >>> 4), false)
  | srl, v, _ => (v >>> 1, v &&& 0x01 != 0)

end Shift

/-- The byte `b` read as a signed displacement and widened to a word. -/
def Alu.signExtend (b : UInt8) : UInt16 := b.toInt8.toInt16.toUInt16

namespace Registers

/-- `ADD A,v`, and `ADC A,v` when `useCarry`: the carry in, the sum of the low
nibbles and the 16-bit sum; A takes the sum's low byte, F is cleared, then Z is
set from the result, H from bit 4 of the nibble sum and C when the sum passes
0xFF. -/
def aluAdd (r : Registers) (value : UInt8) (useCarry : Bool) : Registers :=
  let a := r.a
  let carryIn : UInt8 := if useCarry && r.flags.carry then 1 else 0
  let half := (a &&& 0x0F) + (value &&& 0x0F) + carryIn
  let full := a.toUInt16 + value.toUInt16 + carryIn.toUInt16
  let result := full.toUInt8
  (({ r with a := result }.clearFlags.setFlag .z (result == 0)).setFlag .h (half &&& 0x10 != 0)).setFlag
    .c (full > 0xFF)

/-- `SUB v`, and `SBC A,v` when `useCarry`: the differences of the low nibbles
and of the bytes as signed 16-bit numbers; A takes the difference's low byte,
F is cleared, then Z is set from the result, N set, H when the nibble
difference is negative and C when the byte difference is. -/
def aluSub (r : Registers) (value : UInt8) (useCarry : Bool) : Registers :=
  let a := r.a
  let carryIn : Int16 := if useCarry && r.flags.carry then 1 else 0
  let half := Int16.ofNat (a &&& 0x0F).toNat - Int16.ofNat (value &&& 0x0F).toNat - carryIn
  let full := Int16.ofNat a.toNat - Int16.ofNat value.toNat - carryIn
  let result := full.toUInt16.toUInt8
  ((({ r with a := result }.clearFlags.setFlag .z (result == 0)).setFlag .n true).setFlag .h
    (decide (half < 0))).setFlag .c (decide (full < 0))

/-- `AND v`: Z from the result, H set, the rest of F clear. -/
def aluAnd (r : Registers) (value : UInt8) : Registers :=
  let result := r.a &&& value
  ({ r with a := result }.clearFlags.setFlag .z (result == 0)).setFlag .h true

/-- `OR v`: Z from the result, the rest of F clear. -/
def aluOr (r : Registers) (value : UInt8) : Registers :=
  let result := r.a ||| value
  { r with a := result }.clearFlags.setFlag .z (result == 0)

/-- `XOR v`: Z from the result, the rest of F clear. -/
def aluXor (r : Registers) (value : UInt8) : Registers :=
  let result := r.a ^^^ value
  { r with a := result }.clearFlags.setFlag .z (result == 0)

/-- `CP v`: the flags of `A - v` with A kept: Z when they are equal, N set, H
when A's low nibble is the smaller, C when A is. -/
def aluCp (r : Registers) (value : UInt8) : Registers :=
  let a := r.a
  (((r.clearFlags.setFlag .z (a == value)).setFlag .n true).setFlag .h
    (decide (a &&& 0x0F < value &&& 0x0F))).setFlag .c (decide (a < value))

/-- The accumulator operation `op` on A and `v`. -/
def accumulate (r : Registers) : AluOp → UInt8 → Registers
  | .add, v => r.aluAdd v false
  | .adc, v => r.aluAdd v true
  | .sub, v => r.aluSub v false
  | .sbc, v => r.aluSub v true
  | .and, v => r.aluAnd v
  | .xor, v => r.aluXor v
  | .or, v => r.aluOr v
  | .cp, v => r.aluCp v

/-- Decimal adjust after a BCD addition or subtraction. The correction is 0x60
when C is set and 0x06 when H is set; after an addition also 0x06 when the low
nibble is above 9 and 0x60 when the byte is above 0x99. It is added after an
addition and subtracted after a subtraction. C is set when the correction
includes 0x60, H is cleared and Z comes from the result, one bit at a time;
N is kept. -/
def aluDaa (r : Registers) : Registers :=
  let fl := r.flags
  let base : UInt8 := (if fl.carry then 0x60 else 0) ||| (if fl.halfCarry then 0x06 else 0)
  let adjust : UInt8 :=
    if fl.subtract then base
    else base ||| (if r.a &&& 0x0F > 0x09 then 0x06 else 0) ||| (if r.a > 0x99 then 0x60 else 0)
  let a := if fl.subtract then r.a - adjust else r.a + adjust
  { ((r.setFlag .c (decide (adjust ≥ 0x60))).setFlag .h false).setFlag .z (a == 0) with a }

/-- `ADD HL,v`: N cleared, H when the low twelve bits overflow, C when the
32-bit sum passes 0xFFFF, each one bit at a time; Z is kept. HL takes the
wrapped sum. -/
def aluAdd16Hl (r : Registers) (value : UInt16) : Registers :=
  let hl := r.hl
  (((r.setFlag .n false).setFlag .h ((hl &&& 0x0FFF) + (value &&& 0x0FFF) > 0x0FFF)).setFlag .c
    (hl.toUInt32 + value.toUInt32 > 0xFFFF)).setHl (hl + value)

/-- `base` plus the signed displacement `imm8`, for `ADD SP,r8` and
`LD HL,SP+r8`: the wrapped sum, and the registers with N and Z cleared, H from
a carry out of bit 3 and C from a carry out of bit 7 of the unsigned low-byte
sum, one bit at a time. -/
def aluAdd16Signed (r : Registers) (base : UInt16) (imm8 : UInt8) : UInt16 × Registers :=
  let offset := Alu.signExtend imm8
  (base + offset,
    (((r.setFlag .n false).setFlag .z false).setFlag .h
      ((base &&& 0x000F) + (offset &&& 0x000F) > 0x000F)).setFlag .c
      ((base &&& 0x00FF) + (offset &&& 0x00FF) > 0x00FF))

/-- The shift and rotate core shared by the `CB` page and the accumulator
rotates: the result, and the registers with F cleared, Z set from the result
and C the bit shifted out. -/
def aluRotate (r : Registers) (s : Shift) (value : UInt8) : UInt8 × Registers :=
  let shifted := s.result value r.flags.carry
  (shifted.1, (r.clearFlags.setFlag .z (shifted.1 == 0)).setFlag .c shifted.2)

end Registers
end Dmg
