import Dmg.Cpu.Instr
/-!
# The CB page

After the `CB` prefix byte, a second byte selects one of 256 operations on a
byte operand: `x` (bits 7 and 6) picks the kind, `y` (bits 5 to 3) the shift
or the bit number, and `z` (bits 2 to 0) the operand, from
`B C D E H L (HL) A`.

* `x = 0`: a shift or rotate (`Shift`);
* `x = 1`: `BIT y,r` tests a bit;
* `x = 2`: `RES y,r` clears a bit;
* `x = 3`: `SET y,r` sets a bit.

Key definitions: `BitOp`, `CbOp`, `CbOp.decode`, `CbOp.mnemonic`,
`CbOp.extraCycles`.
-/

namespace Dmg

/-- What a CB-page operation does to its operand. -/
inductive BitOp where
  | shift (s : Shift)
  | test (b : Fin 8)
  | reset (b : Fin 8)
  | set (b : Fin 8)
deriving DecidableEq, Repr

/-- A CB-page operation: what it does, and to which operand. -/
structure CbOp where
  op : BitOp
  target : Operand8
deriving DecidableEq, Repr

namespace CbOp

/-- The operation a CB-page byte selects. -/
def decode (cb : UInt8) : CbOp :=
  let y := (cb >>> 3) &&& 7
  let b : Fin 8 := ⟨y.toNat % 8, Nat.mod_lt _ (by decide)⟩
  let op :=
    match cb >>> 6 with
    | 0 => BitOp.shift (Shift.ofIndex y)
    | 1 => BitOp.test b
    | 2 => BitOp.reset b
    | _ => BitOp.set b
  ⟨op, Operand8.ofIndex cb⟩

/-- The operation's mnemonic, such as `SWAP A`, `BIT 7,H` or `RES 0,(HL)`. -/
def mnemonic (c : CbOp) : String :=
  match c.op with
  | .shift s => s.name ++ " " ++ c.target.name
  | .test b => "BIT " ++ toString b.val ++ "," ++ c.target.name
  | .reset b => "RES " ++ toString b.val ++ "," ++ c.target.name
  | .set b => "SET " ++ toString b.val ++ "," ++ c.target.name

/-- Cycles beyond the prefix's 8: none on a register, 4 for `BIT` on (HL) and
8 for the other operations on (HL), which write the byte back. -/
def extraCycles (c : CbOp) : Nat :=
  match c.target, c.op with
  | .hlMem, .test _ => 4
  | .hlMem, _ => 8
  | _, _ => 0

end CbOp
end Dmg
