import Dmg.Console.Step
/-!
# Command line

`dmg-run <rom_path> [steps] [--trace]` loads a ROM image and runs it. With a
step count it runs that many steps and prints the cycles spent, the registers,
the scanline and the PPU mode; without one it runs until a step fails. With
`--trace` every executed instruction is logged to standard error.
-/

namespace Dmg
namespace Cli

/-- The name of a PPU mode, as printed in the summary line. -/
def modeName : Ppu.Mode → String
  | .hblank => "HBlank"
  | .vblank => "VBlank"
  | .oamRead => "OamRead"
  | .transfer => "OamVramRead"

/-- What the command line asks for: the ROM path, the step count if any, and
whether to trace. -/
structure Args where
  rom : String
  steps : Option Nat
  trace : Bool

/-- Read the arguments after the ROM path. -/
def parseRest : List String → Args → Except String Args
  | [], a => .ok a
  | s :: rest, a =>
    if s = "--trace" then parseRest rest { a with trace := true }
    else
      match s.toNat? with
      | some n => parseRest rest { a with steps := some n }
      | none => .error ("invalid step count '" ++ s ++ "'")

/-- Read the command line. -/
def parseArgs : List String → Except String Args
  | [] => .error "Usage: dmg-run <rom_path> [steps] [--trace]"
  | rom :: rest => parseRest rest ⟨rom, none, false⟩

/-- Print trace lines to standard error. -/
def printTrace (lines : Array String) : IO Unit := do
  let err ← IO.getStderr
  for line in lines do
    err.putStrLn line

/-- Step until a step fails; gives the fault. -/
partial def runForever (c : Console Unit) : IO Fault := do
  let r := Console.step Hooks.none c
  printTrace r.trace
  match r.result with
  | .ok _ => runForever r.console
  | .error f => return f

/-- Report an error the way the command line does, and fail. -/
def fail (msg : String) (cause : Option String) : IO UInt32 := do
  let err ← IO.getStderr
  err.putStrLn ("Error: " ++ msg)
  match cause with
  | some c => err.putStrLn ("\nCaused by:\n    " ++ c)
  | none => pure ()
  return 1

/-- The summary line after a run of `n` steps that took `cycles` cycles. -/
def summary (n cycles : Nat) (c : Console Unit) : String :=
  "Ran " ++ toString n ++ " steps (" ++ toString cycles ++ " cycles). " ++ c.regs.display ++
    " LY=" ++ toString c.ppu.scanline.toNat ++ " mode=" ++ modeName c.ppu.mode

/-- Run a ROM image as the arguments ask. -/
def runImage (args : Args) (bytes : ByteArray) : IO UInt32 := do
  let cfg : Config := { Config.standard with trace := args.trace }
  match (Console.new cfg ()).loadRom bytes.data with
  | .error f => fail ("failed to load '" ++ args.rom ++ "'") (some f.message)
  | .ok c =>
    match args.steps with
    | some n =>
      let r := Console.runFor Hooks.none n c
      printTrace r.trace
      match r.result with
      | .ok cycles =>
        IO.println (summary n cycles r.console)
        return 0
      | .error f => fail f.message none
    | none =>
      let f ← runForever c
      fail f.message none

/-- Run the command line. -/
def run (argv : List String) : IO UInt32 := do
  match parseArgs argv with
  | .error e => fail e none
  | .ok args =>
    match ← (IO.FS.readBinFile args.rom).toBaseIO with
    | .error e => fail ("failed to read ROM '" ++ args.rom ++ "'") (some (toString e))
    | .ok bytes => runImage args bytes

end Cli
end Dmg

/-- The command line's entry point. -/
def main (argv : List String) : IO UInt32 := Dmg.Cli.run argv
