/-!
# Bytes and words

A word is two bytes. `word hi lo` joins them with `hi` as the high byte;
`hiByte` and `loByte` split a word again.

Key definitions: `word`, `hiByte`, `loByte`.
-/

namespace Dmg

/-- The word whose high byte is `hi` and low byte is `lo`. -/
def word (hi lo : UInt8) : UInt16 := hi.toUInt16 <<< 8 ||| lo.toUInt16

/-- The high byte of a word. -/
def hiByte (w : UInt16) : UInt8 := (w >>> 8).toUInt8

/-- The low byte of a word. -/
def loByte (w : UInt16) : UInt8 := w.toUInt8

end Dmg
