import Dmg.Hex
import Dmg.Fault
import Dmg.Word
import Dmg.Cpu.Flags
import Dmg.Cpu.Reg
import Dmg.Cpu.Registers
import Dmg.Cpu.Alu
import Dmg.Cpu.Instr
import Dmg.Cpu.Decode
import Dmg.Cpu.Table
import Dmg.Cpu.CbPage
import Dmg.Memory.Map
import Dmg.Cartridge
import Dmg.Memory.Bus
import Dmg.Interrupt
import Dmg.Ppu
import Dmg.Console.State
import Dmg.Console.Exec
import Dmg.Console.Step
import Dmg.Main
import Dmg.Proofs.Memory
import Dmg.Proofs.Exec
import Dmg.Proofs.Table
import Dmg.Proofs.Session
import Dmg.Proofs.Faults
import Dmg.Proofs.Arith
import Dmg.Proofs.Regular
import Dmg.Proofs.Frame
import Dmg.Proofs.Flow
import Dmg.Proofs.MasterEnable
import Dmg.Proofs.PpuFrame
import Dmg.Proofs.Dispatch
import Dmg.Proofs.Reset
import Dmg.Proofs.CbPage
import Dmg.Proofs.Stack
import Dmg.Proofs.Words
import Dmg.Proofs.Loading
import Dmg.Proofs.Sleep
import Dmg.Proofs.Decimal
import Dmg.Proofs.Capabilities
import Dmg.Proofs.PpuCounters
import Dmg.Proofs.Dump
import Dmg.Proofs.Counting
import Dmg.Proofs.FlagNibble
