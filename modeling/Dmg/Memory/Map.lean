/-!
# The memory map

The 64 KiB address space is cut into twelve regions, each a contiguous range:
the two ROM banks, video RAM, the switchable RAM bank, work RAM, its echo,
sprite attribute memory (OAM), an unusable gap, the I/O ports, unused I/O
space, high RAM, and the interrupt-enable register at 0xFFFF. The two ROM
banks form the ROM window, 0x0000 to 0x7FFF, which ignores writes.

The I/O registers the core itself reads or writes are named here too.

Key definitions: `Region`, `Region.containing`, `Region.isRom`, `ioIf`,
`ioIe`, `ioLy`, `ioStat`.
Key theorems: `Region.isRom_containing`.
-/

namespace Dmg

/-- The interrupt flag register IF. -/
def ioIf : UInt16 := 0xFF0F

/-- The interrupt enable register IE. -/
def ioIe : UInt16 := 0xFFFF

/-- The sound on/off register NR52. -/
def ioNr52 : UInt16 := 0xFF26

/-- The LCD status register STAT. -/
def ioStat : UInt16 := 0xFF41

/-- The current scanline register LY. -/
def ioLy : UInt16 := 0xFF44

/-- A region of the address space. -/
inductive Region where
  | romBank0
  | switchRomBank
  | videoRam
  | switchRamBank
  | workRam
  | echoRam
  | oam
  | unusable
  | ioPorts
  | unusableIo
  | highRam
  | interruptEnable
deriving DecidableEq, Repr

namespace Region

/-- The region an address falls in. -/
def containing (addr : UInt16) : Region :=
  if addr < 0x4000 then romBank0
  else if addr < 0x8000 then switchRomBank
  else if addr < 0xA000 then videoRam
  else if addr < 0xC000 then switchRamBank
  else if addr < 0xE000 then workRam
  else if addr < 0xFE00 then echoRam
  else if addr < 0xFEA0 then oam
  else if addr < 0xFF00 then unusable
  else if addr < 0xFF4C then ioPorts
  else if addr < 0xFF80 then unusableIo
  else if addr < 0xFFFF then highRam
  else interruptEnable

/-- Whether the region is part of the ROM window. -/
def isRom : Region → Bool
  | romBank0 | switchRomBank => true
  | _ => false

/-- The region's name. -/
def name : Region → String
  | romBank0 => "RomBank0"
  | switchRomBank => "SwitchRomBank"
  | videoRam => "VideoRam"
  | switchRamBank => "SwitchRamBank"
  | workRam => "WorkRam"
  | echoRam => "EchoRam"
  | oam => "Oam"
  | unusable => "Unusable"
  | ioPorts => "IoPorts"
  | unusableIo => "UnusableIo"
  | highRam => "HighRam"
  | interruptEnable => "InterruptEnable"

/-- An address is in the ROM window exactly when it is below 0x8000. -/
theorem isRom_containing (addr : UInt16) : (containing addr).isRom = decide (addr < 0x8000) := by
  unfold containing
  by_cases h1 : addr < 0x4000
  · have : addr < 0x8000 := UInt16.lt_of_lt_of_le h1 (by decide)
    simp [h1, this, isRom]
  · by_cases h2 : addr < 0x8000
    · simp [h1, h2, isRom]
    · simp only [h1, h2, if_false, decide_false]
      repeat (split <;> try rfl)

end Region
end Dmg
