/-!
# Uppercase hexadecimal text

Everything the machine prints in hexadecimal (addresses, bytes, register
pairs, fault reports, memory dumps, disassembly) is uppercase and zero-padded
to a minimum width. `Hex.pad w n` is that text: the digits of `n`, most
significant first, with zeros in front up to `w` digits and never cut short.

Key definitions: `Hex.digit`, `Hex.digits`, `Hex.pad`, `Hex.bytes`.
-/

namespace Dmg
namespace Hex

/-- The uppercase hexadecimal digit for `d`, meant for `d < 16`. -/
def digit (d : Nat) : Char :=
  if d < 10 then Char.ofNat (48 + d) else Char.ofNat (55 + d)

/-- The hexadecimal digits of `n`, most significant first, with no leading zero
(zero itself is the single digit `0`). -/
def digits (n : Nat) : List Char :=
  if n < 16 then [digit n] else digits (n / 16) ++ [digit (n % 16)]
termination_by n
decreasing_by omega

/-- `n` in uppercase hexadecimal, zero-padded on the left to at least `width`
digits. A number wider than `width` prints in full. -/
def pad (width n : Nat) : String :=
  let ds := digits n
  String.ofList (List.replicate (width - ds.length) '0' ++ ds)

/-- A byte string as two uppercase hexadecimal digits per byte, in order, with
no separator. -/
def bytes (bs : Array UInt8) : String :=
  bs.foldl (fun s b => s ++ pad 2 b.toNat) ""

end Hex
end Dmg
