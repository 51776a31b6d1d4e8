import Dmg.Hex
/-!
# Faults

Every way an operation of the machine can fail. A fault is raised before the
failing operation changes anything it would have changed, and it carries what
its report needs: the kind (`Fault.kind`) and the one-line message
(`Fault.message`).

Key definitions: `Fault`, `Fault.kind`, `Fault.message`.
-/

namespace Dmg

/-- Why an operation of the machine failed. -/
inductive Fault where
  /-- An access of `len` bytes at `addr` reaches past the 64 KiB address space. -/
  | addressOutOfRange (addr len : Nat)
  /-- The byte at `pc` is one of the eleven opcodes with no instruction. -/
  | unmappedOpcode (opcode : UInt8) (pc : UInt16)
  /-- An opcode table line names an operand its handler cannot use; it carries
  the line's mnemonic. -/
  | malformedInstruction (mnemonic : String)
  /-- A register was named by a code that is not one of the fourteen register codes. -/
  | unknownRegister (code : UInt8)
  /-- A cartridge header names a cartridge type the machine does not know. -/
  | unsupportedCartridge (kind : UInt8)
  /-- A ROM image ends before the cartridge-type byte of its header. -/
  | emptyRom
deriving DecidableEq, Repr

namespace Fault

/-- The name of the kind of fault, as reported. -/
def kind : Fault → String
  | addressOutOfRange .. => "AddressOutOfRange"
  | unmappedOpcode .. => "UnmappedOpcode"
  | malformedInstruction .. => "MalformedInstruction"
  | unknownRegister .. => "UnknownRegister"
  | unsupportedCartridge .. => "UnsupportedCartridge"
  | emptyRom => "EmptyRom"

/-- The one-line report of a fault. -/
def message : Fault → String
  | addressOutOfRange addr len =>
    "memory access of " ++ toString len ++ " byte(s) at 0x" ++ Hex.pad 5 addr ++
      " is outside the 64 KiB address space"
  | unmappedOpcode opcode pc =>
    "unmapped opcode 0x" ++ Hex.pad 2 opcode.toNat ++ " at PC=0x" ++ Hex.pad 4 pc.toNat
  | malformedInstruction mnemonic => "malformed instruction descriptor \x27" ++ mnemonic ++ "\x27"
  | unknownRegister code => "unknown register identifier " ++ toString code.toNat
  | unsupportedCartridge kind => "unsupported cartridge type 0x" ++ Hex.pad 2 kind.toNat
  | emptyRom => "ROM image is too short to contain a cartridge header"

end Fault
end Dmg
