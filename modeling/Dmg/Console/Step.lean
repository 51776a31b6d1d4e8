import Dmg.Console.Exec
/-!
# The step engine

One step of the console:

1. A stopped processor wakes when the joypad interrupt is requested; a halted
   one when some interrupt is both requested and allowed. A processor that
   stays asleep idles for 4 cycles.
2. Otherwise it executes one instruction: it fetches the opcode at PC and
   moves PC past it. A hole fails with `Fault.unmappedOpcode`, PC back on the
   opcode. The instruction runs with PC on its operands; one that does not jump
   then has PC moved past them. The executed count goes up, the instruction's
   effect is applied, and the EI delay moves on. The step costs the
   instruction's cycles plus any extra it reported.
3. The interrupt controller runs one pass. These three are the processor's
   step alone (`Console.cpuStep`).
4. The PPU steps once.
5. The cycle counter goes up by the step's cost.

With tracing on, a step that executes an instruction logs one line for it
(`traceLine`), even when the instruction then fails; a hole logs nothing.

A failed step stops where it failed: the controller, the PPU and the cycle
counter do not run, and PC stays one past the opcode.

Key definitions: `Cpu.wake`, `Cpu.complete`, `traceLine`, `Console.execute`,
`Console.Run`, `Console.cpuStep`, `Console.step`, `Console.runFor`.
-/

namespace Dmg

/-- Wake the processor if its wake-up condition holds: the processor after, and
whether it stays asleep this step. -/
def Cpu.wake (cpu : Cpu) (bus : Bus) : Cpu × Bool :=
  let cpu :=
    if cpu.stopped && pendingSet bus &&& Source.joypad.mask != 0 then { cpu with stopped := false }
    else cpu
  if cpu.stopped then (cpu, true)
  else if cpu.halted then
    if activeSet bus != 0 then ({ cpu with halted := false }, false) else (cpu, true)
  else (cpu, false)

/-- The EI delay one instruction further on, the instruction's effect being
`e`: `EI` arms the delay (or queues a second arming when it is already armed),
an armed delay fires, and a queued one arms. -/
def EnableDelay.next : EnableDelay → Effect → EnableDelay
  | .armed, .enableInterrupts => .rearm
  | .armed, _ => .idle
  | .rearm, _ => .armed
  | .idle, .enableInterrupts => .armed
  | .idle, _ => .idle

/-- Finish an instruction with effect `e`, given the master enable `ime`: the
control state, the master enable and the extra cycles. `DI` turns the master
enable off and cancels any pending `EI`; otherwise the master enable turns on
for `RETI` and when an armed delay fires. -/
def Cpu.complete (cpu : Cpu) (ime : Bool) (e : Effect) : Cpu × Bool × Nat :=
  match e with
  | .disableInterrupts => ({ cpu with delay := .idle }, false, 0)
  | _ =>
    let ime := ime || e == .enableNow || cpu.delay == .armed
    let cpu := { cpu with delay := cpu.delay.next e }
    match e with
    | .extra n => (cpu, ime, n)
    | .halt => ({ cpu with halted := true }, ime, 0)
    | .stop => ({ cpu with stopped := true }, ime, 0)
    | _ => (cpu, ime, 0)

/-- The trace line for the table line `d` of opcode `opcode` at `pc`, `next`
being the byte after the opcode: `0xPPPP: OO MNEMONIC`, or for the CB page
`0xPPPP: CB SS MNEMONIC`. -/
def traceLine (pc : UInt16) (opcode : UInt8) (d : Descriptor) (next : UInt8) : String :=
  "0x" ++ Hex.pad 4 pc.toNat ++ ": " ++
    (if opcode = 0xCB then "CB " ++ Hex.pad 2 next.toNat ++ " " ++ (CbOp.decode next).mnemonic
     else Hex.pad 2 opcode.toNat ++ " " ++ d.mnemonic)

namespace Console

variable {σ : Type}

/-- The line tracing logs for the instruction at PC, when tracing is on and the
opcode is not a hole. -/
def traceLine? (c : Console σ) : Option String :=
  if c.cpu.trace then
    let pc := c.regs.pc
    let opcode := c.bus.readByte pc
    let d := descriptorOf opcode
    if d.implemented then some (traceLine pc opcode d (c.bus.readByte (pc + 1))) else none
  else none

/-- Apply the end of an instruction with effect `e`; gives the extra cycles. -/
def finish (e : Effect) : Exec σ Nat := fun c =>
  let (cpu, ime, extra) := c.cpu.complete c.interrupts.ime e
  .ok extra { c with cpu, interrupts := c.interrupts.setIme ime }

/-- Fetch one instruction and run its table line; gives its cycles. -/
def execute : Exec σ Nat := do
  let pc := (← Exec.regs).pc
  let opcode ← Exec.read pc
  let d := descriptorOf opcode
  if !d.implemented then throw (.unmappedOpcode opcode pc)
  Exec.setPc (pc + 1)
  let e ← d.run
  if !d.jumps then Exec.modifyRegs fun r => r.advancePc (UInt16.ofNat d.operandLen)
  modify fun c => { c with cpu := { c.cpu with executed := c.cpu.executed + 1 } }
  let extra ← finish e
  return d.cycles + extra

/-- The processor's part of a step once it has woken or not: execute an
instruction (or idle for 4 cycles when `asleep`), then run the interrupt
controller. -/
def cpuAdvance (hooks : Hooks σ) (asleep : Bool) : Exec σ Nat := do
  let cycles ← (if asleep then pure 4 else execute)
  modify fun c =>
    let (interrupts, bus, _) := c.interrupts.service hooks c.bus
    { c with interrupts, bus }
  return cycles

/-- The rest of a step of the console once the processor has woken or not:
the processor's part, then the PPU steps and the cycles are counted. -/
def advance (hooks : Hooks σ) (asleep : Bool) : Exec σ Nat := do
  let cycles ← cpuAdvance hooks asleep
  modify fun c =>
    let (ppu, bus) := c.ppu.step c.bus
    { c with ppu, bus }
  modify fun c => { c with cycles := c.cycles + cycles }
  return cycles

/-- What a run of steps did: the console after it, the trace lines logged, and
the cycles taken or the fault that stopped it. -/
structure Run (σ : Type) where
  console : Console σ
  trace : Array String
  result : Except Fault Nat

/-- Wake the processor or not, then run `rest` with whether it stays asleep;
an awake processor logs the trace line of its instruction. -/
def stepWith (rest : Bool → Exec σ Nat) (c : Console σ) : Run σ :=
  let (cpu, asleep) := c.cpu.wake c.bus
  let c := { c with cpu }
  let trace := if asleep then #[] else c.traceLine?.toArray
  match (rest asleep).run c with
  | .ok n c => ⟨c, trace, .ok n⟩
  | .error f c => ⟨c, trace, .error f⟩

/-- One step of the processor alone with interrupt handlers `hooks`: no PPU
step and no cycle count. -/
def cpuStep (hooks : Hooks σ) (c : Console σ) : Run σ := stepWith (cpuAdvance hooks) c

/-- One step of the console with interrupt handlers `hooks`. -/
def step (hooks : Hooks σ) (c : Console σ) : Run σ := stepWith (advance hooks) c

/-- `n` more steps after a run that logged `trace` and took `acc` cycles;
stops at the first failure, keeping the steps before it. -/
def runFrom (hooks : Hooks σ) : Nat → Console σ → Array String → Nat → Run σ
  | 0, c, trace, acc => ⟨c, trace, .ok acc⟩
  | n + 1, c, trace, acc =>
    let r := step hooks c
    match r.result with
    | .ok k => runFrom hooks n r.console (trace ++ r.trace) (acc + k)
    | .error f => ⟨r.console, trace ++ r.trace, .error f⟩

/-- `n` steps; the result is the cycles they took. -/
def runFor (hooks : Hooks σ) (n : Nat) (c : Console σ) : Run σ := runFrom hooks n c #[] 0

end Console
end Dmg
