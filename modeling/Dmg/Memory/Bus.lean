import Dmg.Cartridge
import Dmg.Memory.Map
import Dmg.Word
/-!
# The memory bus

The bus is the 64 KiB address space, the cartridge loaded into it and the
hardware model. Reads see the stored byte. Writes follow the hardware:

* a write into the ROM window (0x0000 to 0x7FFF) changes nothing;
* work RAM 0xC000 to 0xDDFF and its echo 0xE000 to 0xFDFF are one memory seen
  twice, so a write to either also lands at the other (`echoOf?`).

Word accesses are two byte accesses at `a` and `a + 1`, little-endian unless
asked otherwise; an access that would reach past 0xFFFF fails with
`Fault.addressOutOfRange` before touching anything.

At power-on and after `reset` the memory is `powerOnByte`: zero, except the
I/O registers the boot ROM leaves set and the cartridge's ROM window.

Key definitions: `Bus`, `Bus.readByte`, `Bus.writeByte`, `echoOf?`,
`Bus.readWord`, `Bus.writeWord`, `Bus.checkRange`, `Bus.dump`,
`powerOnByte`, `Bus.reset`, `Bus.loadCartridge`, `Bus.digest`.
-/

namespace Dmg

/-- The hardware model. -/
inductive Model where
  | dmg
  | sgb
  | cgb
deriving DecidableEq, Repr, Inhabited

/-- The model's name. -/
def Model.name : Model → String
  | .dmg => "Dmg"
  | .sgb => "Sgb"
  | .cgb => "Cgb"

/-- The model with the given name, if any. -/
def Model.ofName? : String → Option Model
  | "Dmg" => some .dmg
  | "Sgb" => some .sgb
  | "Cgb" => some .cgb
  | _ => none

/-- Byte order of a word in memory. -/
inductive Endian where
  | little
  | big
deriving DecidableEq, Repr

/-- The I/O registers the boot sequence leaves non-zero or explicitly cleared,
with their values (NR52 apart, see `nr52PowerOn`). -/
def ioPowerOn : List (UInt16 × UInt8) :=
  [(0xFF05, 0x00), (0xFF06, 0x00), (0xFF07, 0x00), (0xFF10, 0x80), (0xFF11, 0xBF),
   (0xFF12, 0xF3), (0xFF14, 0xBF), (0xFF16, 0x3F), (0xFF17, 0x00), (0xFF19, 0xBF),
   (0xFF1A, 0x7F), (0xFF1B, 0xFF), (0xFF1C, 0x9F), (0xFF1E, 0xBF), (0xFF20, 0xFF),
   (0xFF21, 0x00), (0xFF22, 0x00), (0xFF23, 0xBF), (0xFF24, 0x77), (0xFF25, 0xF3),
   (0xFF40, 0x91), (0xFF42, 0x00), (0xFF43, 0x00), (0xFF45, 0x00), (0xFF47, 0xFC),
   (0xFF48, 0xFF), (0xFF49, 0xFF), (0xFF4A, 0x00), (0xFF4B, 0x00), (0xFFFF, 0x00)]

/-- NR52 at power-on: sound on, and channel 1 reads as on except on the SGB. -/
def nr52PowerOn : Model → UInt8
  | .sgb => 0xF0
  | _ => 0xF1

/-- The byte at address `i` at power-on: the cartridge's window byte below
0x8000, the power-on value of an I/O register, and zero elsewhere. -/
def powerOnByte (model : Model) (cart : Option Cartridge) (i : Nat) : UInt8 :=
  if i < 0x8000 then
    match cart with
    | some c => c.windowByte i
    | none => 0
  else if i < 0xFF00 then 0
  else if i = ioNr52.toNat then nr52PowerOn model
  else ((ioPowerOn.find? fun p => p.1.toNat = i).map Prod.snd).getD 0

/-- The echo partner of an address: work RAM below 0xDE00 is seen again
0x2000 higher, and the echo is seen again 0x2000 lower. -/
def echoOf? (a : UInt16) : Option UInt16 :=
  if 0xC000 ≤ a ∧ a < 0xDE00 then some (a + 0x2000)
  else if 0xE000 ≤ a ∧ a < 0xFE00 then some (a - 0x2000)
  else none

/-- The memory bus. -/
structure Bus where
  /-- The byte at every address. -/
  memory : Vector UInt8 0x10000
  /-- The cartridge, once one is loaded. -/
  cartridge : Option Cartridge
  /-- The hardware model. -/
  model : Model

namespace Bus

/-- A fresh bus of the given model: power-on memory, no cartridge. -/
def new (model : Model) : Bus :=
  { memory := Vector.ofFn fun i => powerOnByte model none i.val, cartridge := none, model }

/-- The byte at an address. -/
def readByte (bus : Bus) (a : UInt16) : UInt8 := bus.memory.get ⟨a.toNat, a.toNat_lt⟩

/-- Store a byte at an address, with no routing. -/
def poke (m : Vector UInt8 0x10000) (a : UInt16) (v : UInt8) : Vector UInt8 0x10000 :=
  m.set a.toNat v a.toNat_lt

/-- Write a byte as the hardware does: ignored in the ROM window, and stored at
the echo partner too in work RAM and its echo. -/
def writeByte (bus : Bus) (a : UInt16) (v : UInt8) : Bus :=
  if a < 0x8000 then bus
  else
    let m := poke bus.memory a v
    { bus with memory := match echoOf? a with | some b => poke m b v | none => m }

/-- Whether an access of `len` bytes at `addr` stays inside the 64 KiB space;
`Fault.addressOutOfRange addr len` when it does not. -/
def checkRange (addr len : Nat) : Except Fault Unit :=
  if addr + len ≤ 0x10000 then .ok () else .error (.addressOutOfRange addr len)

/-- The word at `a` and `a + 1` in the given byte order, with no range check. -/
def loadWord (bus : Bus) (a : UInt16) (e : Endian) : UInt16 :=
  match e with
  | .little => word (bus.readByte (a + 1)) (bus.readByte a)
  | .big => word (bus.readByte a) (bus.readByte (a + 1))

/-- Write a word as two byte writes, first at `a` and then at `a + 1`, with no
range check. -/
def storeWord (bus : Bus) (a v : UInt16) (e : Endian) : Bus :=
  match e with
  | .little => (bus.writeByte a (loByte v)).writeByte (a + 1) (hiByte v)
  | .big => (bus.writeByte a (hiByte v)).writeByte (a + 1) (loByte v)

/-- Read a word; fails at 0xFFFF, where the second byte is past the end. -/
def readWord (bus : Bus) (a : UInt16) (e : Endian) : Except Fault UInt16 := do
  checkRange a.toNat 2
  return bus.loadWord a e

/-- Write a word; fails at 0xFFFF, changing nothing. -/
def writeWord (bus : Bus) (a v : UInt16) (e : Endian) : Except Fault Bus := do
  checkRange a.toNat 2
  return bus.storeWord a v e

/-- The byte at a numeric address, zero past the end. -/
def byteAt (bus : Bus) (i : Nat) : UInt8 := bus.memory[i]?.getD 0

/-- `count` bytes from `a` on, wrapping past 0xFFFF. -/
def readBytes (bus : Bus) (a : UInt16) (count : Nat) : Array UInt8 :=
  (Array.range count).map fun i => bus.readByte (a + UInt16.ofNat i)

/-- One dump row: the address, then each of `count` bytes from it. -/
def dumpRow (bus : Bus) (start count : Nat) : String :=
  Hex.pad 4 start ++ ":" ++
    String.join ((List.range count).map fun j => " " ++ Hex.pad 2 (bus.byteAt (start + j)).toNat) ++
    "\n"

/-- The bytes `addr .. addr + len` as text, sixteen to a row, each row
`XXXX: XX XX ...`; fails when the range reaches past 0xFFFF. -/
def dump (bus : Bus) (addr : UInt16) (len : Nat) : Except Fault String := do
  checkRange addr.toNat len
  let start := addr.toNat
  return String.join ((List.range ((len + 15) / 16)).map fun r =>
    dumpRow bus (start + 16 * r) (min 16 (len - 16 * r)))

/-- Zero the memory, then write the power-on I/O values for the current model
and map the cartridge again. The cartridge and model stay. -/
def reset (bus : Bus) : Bus :=
  { bus with memory := Vector.ofFn fun i => powerOnByte bus.model bus.cartridge i.val }

/-- Load a ROM image as a cartridge of the given type: the ROM window is
cleared and the image's first `min(len, 0x8000)` bytes are mapped. Fails with
`Fault.unsupportedCartridge` for an unknown type, changing nothing. -/
def loadCartridge (bus : Bus) (rom : Array UInt8) (kind : UInt8) : Except Fault Bus := do
  let c ← Cartridge.make rom kind
  return { bus with
    memory := Vector.ofFn fun i => if i.val < 0x8000 then c.windowByte i.val else bus.memory.get i
    cartridge := some c }

/-- Change the model. Memory is not touched; the next `reset` uses it. -/
def setModel (bus : Bus) (m : Model) : Bus := { bus with model := m }

/-- The 32-bit FNV-1a hash of all 65536 bytes in address order. -/
def digest (bus : Bus) : UInt32 :=
  bus.memory.foldl (fun h b => (h ^^^ b.toUInt32) * 0x01000193) 0x811C9DC5

end Bus
end Dmg
