import Dmg.Memory.Bus
/-!
# Interrupts

Five sources can interrupt the processor, in priority order VBlank, LCD STAT,
timer, serial and joypad; source `i` owns bit `i` of the interrupt flag
register IF (0xFF0F, "requested") and of the interrupt enable register IE
(0xFFFF, "allowed"), and its handler lives at `0x40 + 8 i`. A source is
*active* when it is both requested and allowed.

The controller holds the master enable (IME). When IME is on, a service
(`Controller.service`) takes the active set once, then for each active source
in priority order clears its IF bit and runs that source's hook. A bit a hook
raises is therefore serviced in the same pass only if it was already active.
Hooks are the machine's interrupt handlers: each has its own state and may
use the bus as it likes.

Key definitions: `Source`, `Source.mask`, `Source.vector`, `enabledSet`,
`pendingSet`, `activeSet`, `request`, `Hooks`, `Controller`,
`Controller.service`, `Hooks.recorder`.
-/

namespace Dmg

/-- An interrupt source. -/
inductive Source where
  | vblank
  | lcdStat
  | timer
  | serial
  | joypad
deriving DecidableEq, Repr

namespace Source

/-- The sources in priority order. -/
def all : List Source := [vblank, lcdStat, timer, serial, joypad]

/-- The source's position in priority order. -/
def index : Source → Nat
  | vblank => 0
  | lcdStat => 1
  | timer => 2
  | serial => 3
  | joypad => 4

/-- The source's bit in IF and IE. -/
def mask (s : Source) : UInt8 := 1 <<< UInt8.ofNat s.index

/-- The address of the source's handler. -/
def vector (s : Source) : UInt16 := 0x40 + 8 * UInt16.ofNat s.index

/-- The source's name. -/
def name : Source → String
  | vblank => "VBlank"
  | lcdStat => "LcdStat"
  | timer => "Timer"
  | serial => "Serial"
  | joypad => "Joypad"

/-- The source with the given name, if any. -/
def ofName? (s : String) : Option Source := all.find? (fun x => x.name == s)

end Source

/-- The sources allowed by IE, as a bit set. -/
def enabledSet (bus : Bus) : UInt8 := bus.readByte ioIe &&& 0x1F

/-- The sources requested in IF, as a bit set. -/
def pendingSet (bus : Bus) : UInt8 := bus.readByte ioIf &&& 0x1F

/-- The sources both requested and allowed. -/
def activeSet (bus : Bus) : UInt8 := enabledSet bus &&& pendingSet bus

/-- Request an interrupt: set the source's bit in IF. -/
def request (bus : Bus) (s : Source) : Bus :=
  bus.writeByte ioIf (bus.readByte ioIf ||| s.mask)

/-- Interrupt handlers with state `σ`: the handler for a source takes the
state and the bus, and gives both back. -/
structure Hooks (σ : Type) where
  run : Source → σ → Bus → σ × Bus

/-- Handlers that do nothing. -/
def Hooks.none : Hooks Unit := ⟨fun _ st bus => (st, bus)⟩

/-- Handlers that write a fixed list of bytes per source, keeping a log: a call
first records the source and IF as it reads at that moment, then writes the
source's bytes in order. -/
def Hooks.recorder (script : Source → List (UInt16 × UInt8)) : Hooks (Array (Source × UInt8)) :=
  ⟨fun s log bus =>
    (log.push (s, bus.readByte ioIf),
      (script s).foldl (fun b w => b.writeByte w.1 w.2) bus)⟩

/-- The interrupt controller: the master enable and the handlers' state. -/
structure Controller (σ : Type) where
  /-- The master enable, IME. -/
  ime : Bool
  /-- The handlers' state. -/
  state : σ

namespace Controller

/-- Set the master enable. -/
def setIme (ctl : Controller σ) (v : Bool) : Controller σ := { ctl with ime := v }

/-- Reset the controller: the master enable turns on; the handlers keep their
state. -/
def reset (ctl : Controller σ) : Controller σ := ctl.setIme true

/-- Service one source: clear its IF bit, then run its handler. -/
def serviceOne (hooks : Hooks σ) (s : Source) (st : σ) (bus : Bus) : σ × Bus :=
  hooks.run s st (bus.writeByte ioIf (bus.readByte ioIf &&& ~~~s.mask))

/-- One pass of the controller: nothing when IME is off; otherwise the active
set is taken once and each active source is serviced in priority order. The
result is the controller, the bus and the set serviced. -/
def service (hooks : Hooks σ) (ctl : Controller σ) (bus : Bus) : Controller σ × Bus × UInt8 :=
  if ctl.ime then
    let active := activeSet bus
    let (st, bus) := Source.all.foldl
      (fun (acc : σ × Bus) s =>
        if active &&& s.mask = 0 then acc else serviceOne hooks s acc.1 acc.2)
      (ctl.state, bus)
    ({ ctl with state := st }, bus, active)
  else (ctl, bus, 0)

end Controller
end Dmg
