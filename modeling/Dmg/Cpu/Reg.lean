import Dmg.Fault
/-!
# Register names

The fourteen names a register can be read or written by: the seven byte
registers and F, the stack pointer and program counter, and the four pairs.
Each has a code, its position in the order `A B C D E H L F SP PC AF BC DE HL`;
a code outside `0..13` names no register (`Fault.unknownRegister`).

The instructions name byte operands from a smaller set, `R8` (`B C D E H L A`),
and register pairs from `Pair` (`BC DE HL SP`) and `StackPair` (`BC DE HL AF`).

Key definitions: `Reg`, `Reg.ofCode`, `Reg.isWide`, `R8`, `Pair`, `StackPair`.
Key theorems: `Reg.ofCode_code`.
-/

namespace Dmg

/-- A register name. -/
inductive Reg where
  | a
  | b
  | c
  | d
  | e
  | h
  | l
  | f
  | sp
  | pc
  | af
  | bc
  | de
  | hl
deriving DecidableEq, Repr, Inhabited

namespace Reg

/-- Every register name, in code order. -/
def all : List Reg := [a, b, c, d, e, h, l, f, sp, pc, af, bc, de, hl]

/-- The register's code: its position in `all`. -/
def code : Reg → UInt8
  | a => 0
  | b => 1
  | c => 2
  | d => 3
  | e => 4
  | h => 5
  | l => 6
  | f => 7
  | sp => 8
  | pc => 9
  | af => 10
  | bc => 11
  | de => 12
  | hl => 13

/-- The register with code `n`, if there is one. -/
def ofCode? (n : UInt8) : Option Reg := all[n.toNat]?

/-- The register with code `n`, or `Fault.unknownRegister n`. -/
def ofCode (n : UInt8) : Except Fault Reg :=
  match ofCode? n with
  | some r => .ok r
  | none => .error (.unknownRegister n)

/-- The register's name as written in assembly. -/
def name : Reg → String
  | a => "A"
  | b => "B"
  | c => "C"
  | d => "D"
  | e => "E"
  | h => "H"
  | l => "L"
  | f => "F"
  | sp => "SP"
  | pc => "PC"
  | af => "AF"
  | bc => "BC"
  | de => "DE"
  | hl => "HL"

/-- The register with the given assembly name, if there is one. -/
def ofName? (s : String) : Option Reg := all.find? (fun r => r.name == s)

/-- Whether the register is sixteen bits wide (SP, PC and the pairs). -/
def isWide : Reg → Bool
  | sp | pc | af | bc | de | hl => true
  | _ => false

/-- Decoding a register's code gives the register back. -/
theorem ofCode_code (r : Reg) : ofCode? r.code = some r := by
  cases r <;> rfl

end Reg

/-- A byte register an instruction can name directly. -/
inductive R8 where
  | b
  | c
  | d
  | e
  | h
  | l
  | a
deriving DecidableEq, Repr

/-- The register name of a byte register. -/
def R8.reg : R8 → Reg
  | .b => .b
  | .c => .c
  | .d => .d
  | .e => .e
  | .h => .h
  | .l => .l
  | .a => .a

/-- A sixteen-bit register that loads, increments, decrements and `ADD HL,rr`
name: BC, DE, HL or SP. -/
inductive Pair where
  | bc
  | de
  | hl
  | sp
deriving DecidableEq, Repr

/-- The register name of a pair. -/
def Pair.reg : Pair → Reg
  | .bc => .bc
  | .de => .de
  | .hl => .hl
  | .sp => .sp

/-- A sixteen-bit register that `PUSH` and `POP` name: BC, DE, HL or AF. -/
inductive StackPair where
  | bc
  | de
  | hl
  | af
deriving DecidableEq, Repr

/-- The register name of a stack pair. -/
def StackPair.reg : StackPair → Reg
  | .bc => .bc
  | .de => .de
  | .hl => .hl
  | .af => .af

end Dmg
