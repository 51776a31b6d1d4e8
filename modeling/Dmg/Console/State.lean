import Dmg.Cpu.Registers
import Dmg.Interrupt
import Dmg.Ppu
/-!
# The console's state

A console is the processor's registers and control state, the memory bus,
the interrupt controller, the PPU and a cycle counter, built from a `Config`
and the interrupt handlers' initial state.

The processor's control state (`Cpu`) holds what is not a register: whether
it is halted or stopped, the count of instructions executed, whether tracing
is on, and where the EI delay stands (`EnableDelay`). `EI` turns the master
enable on only once the instruction after it has completed; a second `EI`
while that is due schedules it once more for the instruction after.

Loading a cartridge replaces it and then resets everything; a failed load
changes nothing.

Key definitions: `EnableDelay`, `Cpu`, `Config`, `Console`, `Console.new`,
`Console.reset`, `Console.loadCartridge`, `Console.loadRom`.
-/

namespace Dmg

/-- Where the EI delay stands between two instructions. -/
inductive EnableDelay where
  /-- Nothing scheduled. -/
  | idle
  /-- The master enable turns on when the next instruction completes. -/
  | armed
  /-- An `EI` is waiting: the next instruction to complete arms the delay. -/
  | rearm
deriving DecidableEq, Repr

/-- The processor's control state. -/
structure Cpu where
  halted : Bool
  stopped : Bool
  delay : EnableDelay
  /-- Whether each executed instruction is logged. -/
  trace : Bool
  /-- Instructions executed since the last reset. -/
  executed : Nat
deriving DecidableEq, Repr

/-- A processor at reset, with tracing as given. -/
def Cpu.new (trace : Bool) : Cpu := ⟨false, false, .idle, trace, 0⟩

/-- How a console is built. -/
structure Config where
  model : Model
  /-- Whether the processor starts with tracing on. -/
  trace : Bool
  timing : Ppu.Timing
deriving DecidableEq, Repr

/-- The default configuration: a DMG, no tracing, the standard frame. -/
def Config.standard : Config := ⟨.dmg, false, Ppu.Timing.standard⟩

/-- A console whose interrupt handlers have state `σ`. -/
structure Console (σ : Type) where
  config : Config
  regs : Registers
  bus : Bus
  cpu : Cpu
  interrupts : Controller σ
  ppu : Ppu
  /-- Cycles spent since the last reset. -/
  cycles : Nat

namespace Console

/-- A console at power-on, with no cartridge. -/
def new (cfg : Config) (st : σ) : Console σ where
  config := cfg
  regs := Registers.powerOn
  bus := Bus.new cfg.model
  cpu := Cpu.new cfg.trace
  interrupts := ⟨true, st⟩
  ppu := Ppu.new cfg.timing
  cycles := 0

/-- Reset everything but the cartridge, the model, tracing and the handlers'
state: power-on registers and memory, a processor that is
neither halted nor stopped with nothing executed, the master enable on, the
PPU at the start of a frame, and no cycles. -/
def reset (c : Console σ) : Console σ :=
  { c with
    regs := Registers.powerOn
    bus := c.bus.reset
    cpu := Cpu.new c.cpu.trace
    interrupts := c.interrupts.reset
    ppu := c.ppu.reset
    cycles := 0 }

/-- Load a ROM image as a cartridge of the given type, then reset. -/
def loadCartridge (c : Console σ) (rom : Array UInt8) (kind : UInt8) : Except Fault (Console σ) := do
  let bus ← c.bus.loadCartridge rom kind
  return reset { c with bus }

/-- The offset of the cartridge-type byte in a ROM header. -/
def cartridgeTypeOffset : Nat := 0x147

/-- Load a ROM image, taking the cartridge type from its header; a ROM too short
to have one fails with `Fault.emptyRom`. -/
def loadRom (c : Console σ) (rom : Array UInt8) : Except Fault (Console σ) :=
  match rom[cartridgeTypeOffset]? with
  | some kind => c.loadCartridge rom kind
  | none => .error .emptyRom

/-- Write a register. -/
def setReg (c : Console σ) (r : Reg) (v : UInt16) : Console σ := { c with regs := c.regs.set r v }

/-- Set the master enable. -/
def setIme (c : Console σ) (v : Bool) : Console σ :=
  { c with interrupts := c.interrupts.setIme v }

/-- Request an interrupt. -/
def request (c : Console σ) (s : Source) : Console σ := { c with bus := Dmg.request c.bus s }

/-- Turn tracing on or off. -/
def setTrace (c : Console σ) (v : Bool) : Console σ := { c with cpu := { c.cpu with trace := v } }

/-- Change the bus's model. -/
def setModel (c : Console σ) (m : Model) : Console σ := { c with bus := c.bus.setModel m }

end Console
end Dmg
