import Dmg.Memory.Bus
/-!
# PPU timing

The picture unit's mode machine, stepped once per processor step. In
horizontal blank each step moves the line counter on by one and stays in
horizontal blank, until the new line lies from `vblankStart` to
`lastScanline`, where vertical blank begins. Vertical blank also takes one
step per line; after `lastScanline` the counter goes back to line 0 and OAM
read begins, then the OAM/VRAM transfer, each lasting a fixed number of
steps, and then horizontal blank again on line 0. OAM read and the transfer
thus run once per frame, on line 0, not on every visible line.

Every change of the scanline is written to LY (0xFF44), and every change of
mode to the low two bits of STAT (0xFF41), through the bus.

Key definitions: `Ppu.Timing`, `Ppu.Mode`, `Ppu`, `Ppu.step`, `Ppu.run`, `Ppu.reset`.

Key theorems: `Ppu.size_runFrom` (a run of n steps records n states).
-/

namespace Dmg

/-- The lengths that shape a frame. -/
structure Ppu.Timing where
  /-- The first line of vertical blank. -/
  vblankStart : UInt8
  /-- The last line of the frame. -/
  lastScanline : UInt8
  /-- Steps spent in OAM read. -/
  oamSteps : UInt16
  /-- Steps spent in the OAM/VRAM transfer. -/
  transferSteps : UInt16
deriving DecidableEq, Repr

/-- The usual frame: 144 visible lines, 154 lines in all, 200 steps per phase. -/
def Ppu.Timing.standard : Ppu.Timing := ⟨144, 153, 200, 200⟩

instance : Inhabited Ppu.Timing := ⟨Ppu.Timing.standard⟩

/-- The PPU modes, numbered as in STAT. -/
inductive Ppu.Mode where
  | hblank
  | vblank
  | oamRead
  | transfer
deriving DecidableEq, Repr

/-- The mode's number in STAT. -/
def Ppu.Mode.toUInt8 : Ppu.Mode → UInt8
  | .hblank => 0
  | .vblank => 1
  | .oamRead => 2
  | .transfer => 3

/-- The PPU's timing state. -/
structure Ppu where
  timing : Ppu.Timing
  mode : Ppu.Mode
  scanline : UInt8
  /-- Steps spent so far in the current OAM read or transfer. -/
  clock : Nat
deriving DecidableEq, Repr

namespace Ppu

/-- A PPU with the given timing, at the start of line 0 in horizontal blank. -/
def new (t : Timing) : Ppu := ⟨t, .hblank, 0, 0⟩

/-- Back to horizontal blank on line 0; the bus is not touched. -/
def reset (p : Ppu) : Ppu := { p with mode := .hblank, scanline := 0, clock := 0 }

/-- Move to line `line` and write it to LY. -/
def setScanline (p : Ppu) (bus : Bus) (line : UInt8) : Ppu × Bus :=
  ({ p with scanline := line }, bus.writeByte ioLy line)

/-- Enter mode `m` and write it to the low bits of STAT. -/
def enter (p : Ppu) (bus : Bus) (m : Mode) : Ppu × Bus :=
  ({ p with mode := m }, bus.writeByte ioStat ((bus.readByte ioStat &&& ~~~0x03) ||| m.toUInt8))

/-- Spend one step in a phase lasting `steps`: when it is over, the clock goes
back to zero and the next mode `m` is entered. -/
def tick (p : Ppu) (bus : Bus) (steps : UInt16) (m : Mode) : Ppu × Bus :=
  if p.clock + 1 ≥ steps.toNat then ({ p with clock := 0 }).enter bus m
  else ({ p with clock := p.clock + 1 }, bus)

/-- One step of the mode machine. -/
def step (p : Ppu) (bus : Bus) : Ppu × Bus :=
  match p.mode with
  | .hblank =>
    let (p, bus) := p.setScanline bus (p.scanline + 1)
    if p.timing.vblankStart ≤ p.scanline ∧ p.scanline ≤ p.timing.lastScanline then
      p.enter bus .vblank
    else (p, bus)
  | .vblank =>
    if p.scanline ≥ p.timing.lastScanline then
      let (p, bus) := p.setScanline bus 0
      p.enter bus .oamRead
    else p.setScanline bus (p.scanline + 1)
  | .oamRead => p.tick bus p.timing.oamSteps .transfer
  | .transfer => p.tick bus p.timing.transferSteps .hblank

/-- `n` steps, appending the mode and scanline after each step to `seen`. -/
def runFrom (p : Ppu) (bus : Bus) (seen : Array (Mode × UInt8)) : Nat → Ppu × Bus × Array (Mode × UInt8)
  | 0 => (p, bus, seen)
  | n + 1 =>
    let (p, bus) := p.step bus
    runFrom p bus (seen.push (p.mode, p.scanline)) n

/-- `n` steps: the PPU and bus after them, and the mode and scanline after each
step, in order. -/
def run (p : Ppu) (bus : Bus) (n : Nat) : Ppu × Bus × Array (Mode × UInt8) := p.runFrom bus #[] n

/-- One more step is a step followed by the rest of the run. -/
theorem runFrom_succ (p : Ppu) (bus : Bus) (seen : Array (Mode × UInt8)) (n : Nat) :
    p.runFrom bus seen (n + 1) =
      (p.step bus).1.runFrom (p.step bus).2
        (seen.push ((p.step bus).1.mode, (p.step bus).1.scanline)) n := rfl

/-- A run of `n` steps records exactly `n` states. -/
theorem size_runFrom (p : Ppu) (bus : Bus) (seen : Array (Mode × UInt8)) (n : Nat) :
    (p.runFrom bus seen n).2.2.size = seen.size + n := by
  induction n generalizing p bus seen with
  | zero => rfl
  | succ n ih => rw [runFrom_succ, ih, Array.size_push]; omega

end Ppu
end Dmg
