import Dmg.Cpu.Flags
import Dmg.Cpu.Reg
import Dmg.Word
/-!
# The register file

Seven byte registers A, B, C, D, E, H, L, the flag register F, the stack
pointer and the program counter. The pairs BC, DE, HL and AF are views: the
first register is the high byte, the second the low one. Writing a byte
register keeps the low byte of the value written.

F is a byte like the others, but it is written in three ways only: whole,
through `setF`, which keeps its high nibble and clears the low one (a write
to AF goes through it too); one flag at a time, through `setFlag`, which
sets or clears that flag's bit and touches no other; and all at once, through
`clearFlags`. Nothing else writes F, so its low nibble, clear at power-on,
stays clear; that is a theorem about the register file's operations, not a
fact of its type.

`inc` and `dec` count a register up or down by name: a wide register wraps and
leaves the flags alone, a byte register goes through the increment and
decrement flag rules. F is the one register whose flag update *is* its new
value: counting F applies the rule to F's old value and keeps only the flags.

The by-code forms (`Registers.getByCode` and the rest) take the register's
code instead of its name and fail with `Fault.unknownRegister` for a code past
13.

Key definitions: `Registers`, `Registers.powerOn`, `Registers.cleared`,
`Registers.flags`, `Registers.setF`, `Registers.setFlag`, `Registers.get`,
`Registers.set`, `Registers.inc`, `Registers.dec`, `Registers.incByCode`,
`Registers.display`.
-/

namespace Dmg

/-- The processor's registers. -/
structure Registers where
  a : UInt8
  f : UInt8
  b : UInt8
  c : UInt8
  d : UInt8
  e : UInt8
  h : UInt8
  l : UInt8
  sp : UInt16
  pc : UInt16
deriving DecidableEq, Repr

namespace Registers

/-- The registers at power-on: AF=01B0, BC=0013, DE=00D8, HL=014D, SP=FFFE,
PC=0100. -/
def powerOn : Registers where
  a := 0x01
  f := 0xB0
  b := 0x00
  c := 0x13
  d := 0x00
  e := 0xD8
  h := 0x01
  l := 0x4D
  sp := 0xFFFE
  pc := 0x0100

/-- The registers before anything is loaded into them: all zero. -/
def cleared : Registers := ⟨0, 0, 0, 0, 0, 0, 0, 0, 0, 0⟩

instance : Inhabited Registers := ⟨cleared⟩

/-- The four flags, as F's high nibble holds them. -/
def flags (r : Registers) : Flags := Flags.ofByte r.f

/-- Write F: the low nibble of `v` is dropped. -/
def setF (r : Registers) (v : UInt8) : Registers := { r with f := v &&& 0xF0 }

/-- The pair AF. -/
def af (r : Registers) : UInt16 := word r.a r.f

/-- Write AF: the high byte to A, the low byte to F through `setF`. -/
def setAf (r : Registers) (v : UInt16) : Registers := { r with a := hiByte v }.setF (loByte v)

/-- The pair BC. -/
def bc (r : Registers) : UInt16 := word r.b r.c

/-- The pair DE. -/
def de (r : Registers) : UInt16 := word r.d r.e

/-- The pair HL. -/
def hl (r : Registers) : UInt16 := word r.h r.l

/-- Write HL. -/
def setHl (r : Registers) (v : UInt16) : Registers := { r with h := hiByte v, l := loByte v }

/-- Set or clear one flag's bit of F, keeping every other bit. -/
def setFlag (r : Registers) (fl : Flag) (v : Bool) : Registers :=
  { r with f := if v then r.f ||| fl.mask else r.f &&& ~~~fl.mask }

/-- Clear F. -/
def clearFlags (r : Registers) : Registers := { r with f := 0 }

/-- Read a register by name; a byte register reads as a word below 256. -/
def get (r : Registers) : Reg → UInt16
  | .a => r.a.toUInt16
  | .b => r.b.toUInt16
  | .c => r.c.toUInt16
  | .d => r.d.toUInt16
  | .e => r.e.toUInt16
  | .h => r.h.toUInt16
  | .l => r.l.toUInt16
  | .f => r.f.toUInt16
  | .sp => r.sp
  | .pc => r.pc
  | .af => r.af
  | .bc => r.bc
  | .de => r.de
  | .hl => r.hl

/-- Write a register by name. A byte register keeps the low byte of `v`; F (and
the F half of AF) goes through `setF`. -/
def set (r : Registers) : Reg → UInt16 → Registers
  | .a, v => { r with a := loByte v }
  | .b, v => { r with b := loByte v }
  | .c, v => { r with c := loByte v }
  | .d, v => { r with d := loByte v }
  | .e, v => { r with e := loByte v }
  | .h, v => { r with h := loByte v }
  | .l, v => { r with l := loByte v }
  | .f, v => r.setF (loByte v)
  | .sp, v => { r with sp := v }
  | .pc, v => { r with pc := v }
  | .af, v => r.setAf v
  | .bc, v => { r with b := hiByte v, c := loByte v }
  | .de, v => { r with d := hiByte v, e := loByte v }
  | .hl, v => { r with h := hiByte v, l := loByte v }

/-- Read a byte register an instruction names. -/
def read8 (r : Registers) : R8 → UInt8
  | .b => r.b
  | .c => r.c
  | .d => r.d
  | .e => r.e
  | .h => r.h
  | .l => r.l
  | .a => r.a

/-- Write a byte register an instruction names. -/
def write8 (r : Registers) : R8 → UInt8 → Registers
  | .b, v => { r with b := v }
  | .c, v => { r with c := v }
  | .d, v => { r with d := v }
  | .e, v => { r with e := v }
  | .h, v => { r with h := v }
  | .l, v => { r with l := v }
  | .a, v => { r with a := v }

/-- Increment the byte `v` as `INC` does: the result, and the registers with Z,
N and H set from it, one bit at a time. -/
def inc8 (r : Registers) (v : UInt8) : UInt8 × Registers :=
  let result := v + 1
  (result, ((r.setFlag .z (result == 0)).setFlag .n false).setFlag .h (v &&& 0x0F == 0x0F))

/-- Decrement the byte `v` as `DEC` does: the result, and the registers with Z,
N and H set from it, one bit at a time. -/
def dec8 (r : Registers) (v : UInt8) : UInt8 × Registers :=
  let result := v - 1
  (result, ((r.setFlag .z (result == 0)).setFlag .n true).setFlag .h (v &&& 0x0F == 0))

/-- Count a register up by one. A wide register wraps and keeps the flags; a
byte register takes the increment flag rule; for F only the flag update stays. -/
def inc (r : Registers) (id : Reg) : Registers :=
  if id.isWide then r.set id (r.get id + 1)
  else
    let (v, r') := r.inc8 (loByte (r.get id))
    if id = .f then r' else r'.set id v.toUInt16

/-- Count a register down by one, as `inc` counts it up: a wide register
wraps and keeps the flags; a byte register takes the decrement flag rule; for F
only the flag update stays. -/
def dec (r : Registers) (id : Reg) : Registers :=
  if id.isWide then r.set id (r.get id - 1)
  else
    let (v, r') := r.dec8 (loByte (r.get id))
    if id = .f then r' else r'.set id v.toUInt16

/-- Read a register by code; `Fault.unknownRegister` for a code that names none. -/
def getByCode (r : Registers) (n : UInt8) : Except Fault UInt16 := do
  return r.get (← Reg.ofCode n)

/-- Write a register by code; for a code that names none, the fault and no
new registers. -/
def setByCode (r : Registers) (n : UInt8) (v : UInt16) : Except Fault Registers := do
  return r.set (← Reg.ofCode n) v

/-- Count a register up by code: its new value, and the registers. -/
def incByCode (r : Registers) (n : UInt8) : Except Fault (UInt16 × Registers) := do
  let id ← Reg.ofCode n
  let r := r.inc id
  return (r.get id, r)

/-- Count a register down by code: its new value, and the registers. -/
def decByCode (r : Registers) (n : UInt8) : Except Fault (UInt16 × Registers) := do
  let id ← Reg.ofCode n
  let r := r.dec id
  return (r.get id, r)

/-- Move the program counter forward by `n`, wrapping. -/
def advancePc (r : Registers) (n : UInt16) : Registers := { r with pc := r.pc + n }

/-- Move the program counter back by `n`, wrapping. -/
def rewindPc (r : Registers) (n : UInt16) : Registers := { r with pc := r.pc - n }

/-- The one-line register report, `PC=0x.... SP=0x.... AF=0x.... BC=0x.... DE=0x.... HL=0x....`. -/
def display (r : Registers) : String :=
  "PC=0x" ++ Hex.pad 4 r.pc.toNat ++ " SP=0x" ++ Hex.pad 4 r.sp.toNat ++
    " AF=0x" ++ Hex.pad 4 r.af.toNat ++ " BC=0x" ++ Hex.pad 4 r.bc.toNat ++
    " DE=0x" ++ Hex.pad 4 r.de.toNat ++ " HL=0x" ++ Hex.pad 4 r.hl.toNat

end Registers
end Dmg
