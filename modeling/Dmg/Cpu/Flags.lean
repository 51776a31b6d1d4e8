/-!
# The flag register

The processor keeps four condition flags in the high nibble of the F register:
zero (bit 7), subtract (bit 6), half carry (bit 5) and carry (bit 4). F itself
is a byte of the register file; `Flags` is the view of its high nibble as four
booleans (`Flags.ofByte`), and `Flags.toByte` spells four booleans as a byte
with a clear low nibble. A single flag is set or cleared through its bit
(`Flag.mask`), which touches no other bit of F.

The increment and decrement flag rules (`Flags.afterInc`, `Flags.afterDec`)
are stated here on the view: they are what `INC r`, `DEC r`, `INC (HL)`,
`DEC (HL)` and the register file's own counters do to the four flags.

Key definitions: `Flags`, `Flag`, `Flag.mask`, `Flags.toByte`, `Flags.ofByte`,
`Flags.afterInc`, `Flags.afterDec`.
Key theorems: `Flags.ofByte_toByte`, `Flags.toByte_low`.
-/

namespace Dmg

/-- The four condition flags. -/
structure Flags where
  /-- Z: the last result was zero. -/
  zero : Bool
  /-- N: the last arithmetic operation was a subtraction. -/
  subtract : Bool
  /-- H: a carry out of (or a borrow into) bit 3. -/
  halfCarry : Bool
  /-- C: a carry out of (or a borrow into) the top bit. -/
  carry : Bool
deriving DecidableEq, Repr, Inhabited

/-- One of the four flags, by name. -/
inductive Flag where
  | z
  | n
  | h
  | c
deriving DecidableEq, Repr

namespace Flag

/-- The flag's bit in F. -/
def bit : Flag → UInt8
  | z => 7
  | n => 6
  | h => 5
  | c => 4

/-- The flag's bit in F, as a mask. -/
def mask (fl : Flag) : UInt8 := 1 <<< fl.bit

end Flag

namespace Flags

/-- All four flags clear. -/
def clear : Flags := ⟨false, false, false, false⟩

/-- The value of one flag. -/
def get (f : Flags) : Flag → Bool
  | .z => f.zero
  | .n => f.subtract
  | .h => f.halfCarry
  | .c => f.carry

/-- Set one flag, keeping the others. -/
def set (f : Flags) : Flag → Bool → Flags
  | .z, v => { f with zero := v }
  | .n, v => { f with subtract := v }
  | .h, v => { f with halfCarry := v }
  | .c, v => { f with carry := v }

/-- The flags as a byte: bits 7 to 4, zeros below. -/
def toByte (f : Flags) : UInt8 :=
  (if f.zero then 0x80 else 0) ||| (if f.subtract then 0x40 else 0) |||
    (if f.halfCarry then 0x20 else 0) ||| (if f.carry then 0x10 else 0)

/-- The flags a byte holds: its bits 7 to 4. -/
def ofByte (b : UInt8) : Flags :=
  ⟨b &&& 0x80 != 0, b &&& 0x40 != 0, b &&& 0x20 != 0, b &&& 0x10 != 0⟩

/-- The flags after incrementing the byte `v`: Z from the result, N clear, H when
the low nibble of `v` overflows; C is kept. -/
def afterInc (f : Flags) (v : UInt8) : Flags :=
  { f with zero := v + 1 == 0, subtract := false, halfCarry := v &&& 0x0F == 0x0F }

/-- The flags after decrementing the byte `v`: Z from the result, N set, H when
the low nibble of `v` borrows; C is kept. -/
def afterDec (f : Flags) (v : UInt8) : Flags :=
  { f with zero := v - 1 == 0, subtract := true, halfCarry := v &&& 0x0F == 0 }

/-- Reading a spelled-out byte back gives the flags that were spelled. -/
theorem ofByte_toByte (f : Flags) : ofByte f.toByte = f := by
  cases f with
  | mk z n h c => cases z <;> cases n <;> cases h <;> cases c <;> rfl

/-- Spelled-out flags have a clear low nibble. -/
theorem toByte_low (f : Flags) : f.toByte &&& 0x0F = 0 := by
  cases f with
  | mk z n h c => cases z <;> cases n <;> cases h <;> cases c <;> rfl

end Flags
end Dmg
