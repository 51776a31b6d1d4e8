import Dmg.Fault
/-!
# Cartridges

A cartridge is a ROM image with the cartridge-type byte of its header. The
type byte names the hardware on the board: one of 26 known types, each with a
description such as `ROM+MBC1+RAM+BATT`. The description is read as a `+`
separated list of hardware tokens; the hardware of the cartridge
(`Capabilities`) is the union of what the tokens name. Vendor tokens
(`Bandai`, `Hudson`) and unknown tokens name nothing.

Only the ROM window is mapped: the first `min(len, 0x8000)` bytes of the image
(`Cartridge.mappedLen`); the rest of the window reads as zero.

Key definitions: `Capabilities`, `Capabilities.parse`, `Cartridge.describe`,
`Cartridge.make`, `Cartridge.mappedLen`, `Cartridge.hasExternalRam`,
`Cartridge.windowByte`.
-/

namespace Dmg

/-- A set of cartridge hardware features, one bit each. -/
structure Capabilities where
  bits : UInt16
deriving DecidableEq, Repr

namespace Capabilities

instance : OrOp Capabilities := ⟨fun x y => ⟨x.bits ||| y.bits⟩⟩

/-- No hardware. -/
def empty : Capabilities := ⟨0⟩

/-- ROM. -/
def rom : Capabilities := ⟨1⟩
/-- The MBC1 bank controller. -/
def mbc1 : Capabilities := ⟨2⟩
/-- The MBC2 bank controller, with its built-in RAM. -/
def mbc2 : Capabilities := ⟨4⟩
/-- The MBC3 bank controller. -/
def mbc3 : Capabilities := ⟨8⟩
/-- The MBC5 bank controller. -/
def mbc5 : Capabilities := ⟨16⟩
/-- The MMM01 bank controller. -/
def mmm01 : Capabilities := ⟨32⟩
/-- External RAM. -/
def ram : Capabilities := ⟨64⟩
/-- External static RAM. -/
def sram : Capabilities := ⟨128⟩
/-- A battery keeping RAM. -/
def battery : Capabilities := ⟨256⟩
/-- A real-time clock. -/
def timer : Capabilities := ⟨512⟩
/-- A rumble motor. -/
def rumble : Capabilities := ⟨1024⟩
/-- The Pocket Camera. -/
def pocketCamera : Capabilities := ⟨2048⟩
/-- The Bandai TAMA5 controller. -/
def bandaiTama5 : Capabilities := ⟨4096⟩
/-- The Hudson HuC-1 controller. -/
def hudsonHuc1 : Capabilities := ⟨8192⟩
/-- The Hudson HuC-3 controller. -/
def hudsonHuc3 : Capabilities := ⟨16384⟩

/-- Whether the two sets share a feature. -/
def intersects (x y : Capabilities) : Bool := x.bits &&& y.bits != 0

/-- The hardware one token of a description names; nothing for a vendor name
or an unknown token. Tokens match exactly, case and spaces included. -/
def ofToken : String → Capabilities
  | "ROM" | "ROM ONLY" => rom
  | "MBC1" => mbc1
  | "MBC2" => mbc2
  | "MBC3" => mbc3
  | "MBC5" => mbc5
  | "MMM01" => mmm01
  | "RAM" => ram
  | "SRAM" => sram
  | "BATT" | "BATTERY" => battery
  | "TIMER" => timer
  | "RUMBLE" => rumble
  | "Pocket Camera" => pocketCamera
  | "TAMA5" => bandaiTama5
  | "HuC-1" => hudsonHuc1
  | "HuC-3" => hudsonHuc3
  | _ => empty

/-- The tokens of a description: the pieces between `+` signs, empty pieces
included (the empty text is one empty token). -/
def tokens (s : String) : List String := (s.toList.splitOn '+').map String.ofList

/-- The hardware a description names: the union over its tokens. -/
def parse (s : String) : Capabilities := (tokens s).foldl (fun c t => c ||| ofToken t) empty

end Capabilities

/-- A loaded cartridge. -/
structure Cartridge where
  /-- The whole ROM image. -/
  rom : Array UInt8
  /-- The cartridge-type byte. -/
  kind : UInt8
  /-- The description of the type. -/
  description : String
  /-- The hardware the description names. -/
  capabilities : Capabilities

namespace Cartridge

/-- The known cartridge types and their descriptions. -/
def kinds : List (UInt8 × String) :=
  [(0x00, "ROM ONLY"), (0x01, "ROM+MBC1"), (0x02, "ROM+MBC1+RAM"),
   (0x03, "ROM+MBC1+RAM+BATT"), (0x05, "ROM+MBC2"), (0x06, "ROM+MBC2+BATTERY"),
   (0x08, "ROM+RAM"), (0x09, "ROM+RAM+BATTERY"), (0x0B, "ROM+MMM01"),
   (0x0C, "ROM+MMM01+SRAM"), (0x0D, "ROM+MMM01+SRAM+BATT"), (0x0F, "ROM+MBC3+TIMER+BATT"),
   (0x10, "ROM+MBC3+TIMER+RAM+BATT"), (0x11, "ROM+MBC3"), (0x12, "ROM+MBC3+RAM"),
   (0x13, "ROM+MBC3+RAM+BATT"), (0x19, "ROM+MBC5"), (0x1A, "ROM+MBC5+RAM"),
   (0x1B, "ROM+MBC5+RAM+BATT"), (0x1C, "ROM+MBC5+RUMBLE"), (0x1D, "ROM+MBC5+RUMBLE+SRAM"),
   (0x1E, "ROM+MBC5+RUMBLE+SRAM+BATT"), (0x1F, "Pocket Camera"), (0xFD, "Bandai+TAMA5"),
   (0xFE, "Hudson+HuC-3"), (0xFF, "Hudson+HuC-1")]

/-- The description of a cartridge type, or `Fault.unsupportedCartridge`. -/
def describe (kind : UInt8) : Except Fault String :=
  match kinds.lookup kind with
  | some d => .ok d
  | none => .error (.unsupportedCartridge kind)

/-- The cartridge of a ROM image and a type byte, or `Fault.unsupportedCartridge`
when the type is unknown. -/
def make (rom : Array UInt8) (kind : UInt8) : Except Fault Cartridge := do
  let d ← describe kind
  return { rom, kind, description := d, capabilities := Capabilities.parse d }

/-- How many bytes of the image are mapped: `min(len, 0x8000)`. -/
def mappedLen (c : Cartridge) : Nat := min c.rom.size 0x8000

/-- Whether the board has RAM of its own: RAM, SRAM or the MBC2's built-in RAM. -/
def hasExternalRam (c : Cartridge) : Bool :=
  c.capabilities.intersects (Capabilities.ram ||| Capabilities.sram ||| Capabilities.mbc2)

/-- The byte the cartridge puts at ROM-window address `i < 0x8000`: the image's
byte, or zero past its end. -/
def windowByte (c : Cartridge) (i : Nat) : UInt8 := c.rom.getD i 0

end Cartridge
end Dmg
