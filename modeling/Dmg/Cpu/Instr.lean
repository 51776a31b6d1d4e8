import Dmg.Cpu.Alu
import Dmg.Cpu.Reg
/-!
# Instructions

The instruction set as a datatype: one constructor per form, with the
registers, condition or operation it names as arguments. Decoding an opcode
into an `Instr` is `Dmg.decode`; executing one is in `Dmg.Console.Exec`.

The opcode table (`Dmg.instructions`) gives each opcode a *descriptor*: its
mnemonic, base cycles, number of operand bytes, the destination and source
operands in the table's own vocabulary (`Operand`), the branch condition,
whether it sets PC itself (`jumps`), and the routine that runs it
(`Handler`). The engine runs the routine on the line's operands, and uses
`operandLen` and `jumps` to step PC past the operands of an instruction that
does not jump. `Instr.descriptor` is the line an instruction's own reading
gives it.

Key definitions: `Operand8`, `Indirect`, `Cond`, `Instr`, `Operand`,
`Handler`, `Descriptor`, `Instr.descriptor`.
-/

namespace Dmg

/-- A byte operand as the three-bit register field encodes it:
`B C D E H L (HL) A`. -/
inductive Operand8 where
  | reg (r : R8)
  | hlMem
deriving DecidableEq, Repr

namespace Operand8

/-- The operand for a three-bit register field (the low three bits of `z`). -/
def ofIndex (z : UInt8) : Operand8 :=
  match z &&& 7 with
  | 0 => reg .b
  | 1 => reg .c
  | 2 => reg .d
  | 3 => reg .e
  | 4 => reg .h
  | 5 => reg .l
  | 6 => hlMem
  | _ => reg .a

/-- The operand as written in assembly. -/
def name : Operand8 → String
  | reg r => r.reg.name
  | hlMem => "(HL)"

end Operand8

/-- The addresses `LD A,(..)` and `LD (..),A` use besides `(HL)`: BC or DE,
HL with a post-increment or post-decrement, `0xFF00` plus the immediate byte
or plus C, or the immediate word. -/
inductive Indirect where
  | bc
  | de
  | hlInc
  | hlDec
  | high
  | highC
  | absolute
deriving DecidableEq, Repr

/-- The mnemonic of a load or store of A through the address, with its space. -/
def Indirect.head : Indirect → String
  | .high => "LDH "
  | _ => "LD "

/-- The address as written in assembly. -/
def Indirect.name : Indirect → String
  | .bc => "(BC)"
  | .de => "(DE)"
  | .hlInc => "(HL+)"
  | .hlDec => "(HL-)"
  | .high => "(a8)"
  | .highC => "(C)"
  | .absolute => "(a16)"

/-- A branch condition. -/
inductive Cond where
  | always
  | notZero
  | zero
  | noCarry
  | carry
deriving DecidableEq, Repr

namespace Cond

/-- Whether the condition holds for the given flags. -/
def holds : Cond → Flags → Bool
  | always, _ => true
  | notZero, f => !f.zero
  | zero, f => f.zero
  | noCarry, f => !f.carry
  | carry, f => f.carry

/-- The condition for the two-bit field of a conditional branch. -/
def ofIndex (y : UInt8) : Cond :=
  match y &&& 3 with
  | 0 => notZero
  | 1 => zero
  | 2 => noCarry
  | _ => carry

/-- The condition's name. -/
def name : Cond → String
  | always => "Always"
  | notZero => "NotZero"
  | zero => "Zero"
  | noCarry => "NoCarry"
  | carry => "Carry"

/-- The condition as written in a mnemonic: empty for `always`. -/
def short : Cond → String
  | always => ""
  | notZero => "NZ"
  | zero => "Z"
  | noCarry => "NC"
  | carry => "C"

/-- The condition and its comma, as it leads the operand of a branch mnemonic:
empty for `always`. -/
def lead (c : Cond) : String := if c = always then "" else c.short ++ ","

end Cond

/-- An instruction. -/
inductive Instr where
  | nop
  | stop
  | halt
  | di
  | ei
  | daa
  | cpl
  | scf
  | ccf
  /-- `RLCA`, `RRCA`, `RLA`, `RRA`: a shift of A that always clears Z. -/
  | rotateA (s : Shift)
  /-- `LD r,r'`. -/
  | ld (dst src : Operand8)
  /-- `LD r,d8`. -/
  | ldImm (dst : Operand8)
  /-- `LD A,(..)` and `LDH A,(a8)`. -/
  | loadA (src : Indirect)
  /-- `LD (..),A` and `LDH (a8),A`. -/
  | storeA (dst : Indirect)
  /-- `LD rr,d16`. -/
  | ldPairImm (p : Pair)
  /-- `LD (a16),SP`. -/
  | storeSp
  /-- `LD SP,HL`. -/
  | ldSpHl
  /-- `LD HL,SP+r8`. -/
  | ldHlSpOffset
  | inc (o : Operand8)
  | dec (o : Operand8)
  | incPair (p : Pair)
  | decPair (p : Pair)
  /-- `ADD A,r` and the other accumulator operations on a register or (HL). -/
  | alu (op : AluOp) (src : Operand8)
  /-- `ADD A,d8` and the other accumulator operations on the immediate byte. -/
  | aluImm (op : AluOp)
  | addHl (p : Pair)
  /-- `ADD SP,r8`. -/
  | addSp
  | jr (c : Cond)
  | jp (c : Cond)
  /-- `JP (HL)`. -/
  | jpHl
  | call (c : Cond)
  | ret (c : Cond)
  | reti
  /-- `RST n*8`. -/
  | rst (n : Fin 8)
  | push (p : StackPair)
  | pop (p : StackPair)
  /-- `PREFIX CB`: the next byte selects a shift or bit operation. -/
  | cb
deriving DecidableEq, Repr

/-- An operand in the opcode table's vocabulary. -/
inductive Operand where
  | implied
  | reg (r : Reg)
  | mem (r : Reg)
  | memInc (r : Reg)
  | memDec (r : Reg)
  | imm8
  | imm16
  | memImm16
  | highImm8
  | highReg (r : Reg)
  | vector (v : UInt8)
deriving DecidableEq, Repr

namespace Operand

/-- The operand's kind name. -/
def kind : Operand → String
  | implied => "Implied"
  | reg _ => "Reg"
  | mem _ => "Mem"
  | memInc _ => "MemInc"
  | memDec _ => "MemDec"
  | imm8 => "Imm8"
  | imm16 => "Imm16"
  | memImm16 => "MemImm16"
  | highImm8 => "HighImm8"
  | highReg _ => "HighReg"
  | vector _ => "Vector"

/-- The register the operand names, if it names one. -/
def reg? : Operand → Option Reg
  | reg r | mem r | memInc r | memDec r | highReg r => some r
  | _ => none

/-- The restart address, for a vector operand. -/
def vector? : Operand → Option UInt8
  | vector v => some v
  | _ => none

/-- Whether the operand is a memory access. -/
def isMemory : Operand → Bool
  | mem _ | memInc _ | memDec _ | memImm16 | highImm8 | highReg _ => true
  | _ => false

/-- A byte operand in the table's vocabulary. -/
def ofOperand8 : Operand8 → Operand
  | .reg r => reg r.reg
  | .hlMem => mem .hl

/-- An accumulator address in the table's vocabulary. -/
def ofIndirect : Indirect → Operand
  | .bc => mem .bc
  | .de => mem .de
  | .hlInc => memInc .hl
  | .hlDec => memDec .hl
  | .high => highImm8
  | .highC => highReg .c
  | .absolute => memImm16

end Operand

/-- The routine an opcode table line runs. The eight accumulator operations
share one routine on the operation, and so do the four accumulator rotates on
the shift. -/
inductive Handler where
  | nop
  | unknown
  | halt
  | stop
  | di
  | ei
  /-- `LD dst,src` on bytes. -/
  | ld8
  /-- `LD rr,d16` and `LD SP,HL`. -/
  | ld16
  /-- `LD (a16),SP`. -/
  | ldA16Sp
  /-- `LD HL,SP+r8`. -/
  | ldHlSpR8
  | inc8
  | dec8
  | inc16
  | dec16
  | alu (op : AluOp)
  | addHl
  | addSp
  | daa
  | cpl
  | scf
  | ccf
  | rotateA (s : Shift)
  | jr
  | jp
  | jpHl
  | call
  | ret
  | reti
  | rst
  | push
  | pop
  | prefixCb
deriving DecidableEq, Repr

/-- An opcode table line. -/
structure Descriptor where
  mnemonic : String
  /-- Base cycles, before any extra for a taken branch or a `(HL)` bit operation. -/
  cycles : Nat
  /-- Operand bytes after the opcode. -/
  operandLen : Nat
  dst : Operand
  src : Operand
  cond : Cond
  /-- Whether the instruction leaves PC where execution continues itself. -/
  jumps : Bool
  /-- False only for the eleven opcodes with no instruction. -/
  implemented : Bool
  handler : Handler
deriving DecidableEq, Repr

namespace Descriptor

/-- The line of an instruction with no operands and no condition that does
not jump; the table sets the rest field by field. -/
def op (mnemonic : String) (cycles : Nat) (handler : Handler) : Descriptor :=
  ⟨mnemonic, cycles, 0, .implied, .implied, .always, false, true, handler⟩

/-- The line for an opcode with no instruction. -/
def unmapped : Descriptor := ⟨"??", 4, 0, .implied, .implied, .always, false, false, .unknown⟩

/-- The instruction's length in bytes, opcode included. -/
def size (d : Descriptor) : Nat := 1 + d.operandLen

/-- The line as text: `MNEMONIC (n bytes, c cycles)`. -/
def display (d : Descriptor) : String :=
  d.mnemonic ++ " (" ++ toString d.size ++ " bytes, " ++ toString d.cycles ++ " cycles)"

end Descriptor

namespace Instr

/-- The instruction's mnemonic. -/
def mnemonic : Instr → String
  | nop => "NOP"
  | stop => "STOP"
  | halt => "HALT"
  | di => "DI"
  | ei => "EI"
  | daa => "DAA"
  | cpl => "CPL"
  | scf => "SCF"
  | ccf => "CCF"
  | rotateA s => s.name ++ "A"
  | ld d s => "LD " ++ d.name ++ "," ++ s.name
  | ldImm d => "LD " ++ d.name ++ ",d8"
  | loadA i => i.head ++ "A," ++ i.name
  | storeA i => i.head ++ i.name ++ ",A"
  | ldPairImm p => "LD " ++ p.reg.name ++ ",d16"
  | storeSp => "LD (a16),SP"
  | ldSpHl => "LD SP,HL"
  | ldHlSpOffset => "LD HL,SP+r8"
  | inc o => "INC " ++ o.name
  | dec o => "DEC " ++ o.name
  | incPair p => "INC " ++ p.reg.name
  | decPair p => "DEC " ++ p.reg.name
  | alu op s => op.lead ++ s.name
  | aluImm op => op.lead ++ "d8"
  | addHl p => "ADD HL," ++ p.reg.name
  | addSp => "ADD SP,r8"
  | jr c => "JR " ++ c.lead ++ "r8"
  | jp c => "JP " ++ c.lead ++ "a16"
  | jpHl => "JP (HL)"
  | call c => "CALL " ++ c.lead ++ "a16"
  | ret .always => "RET"
  | ret c => "RET " ++ c.short
  | reti => "RETI"
  | rst n => "RST " ++ Hex.pad 2 (n.val * 8) ++ "H"
  | push p => "PUSH " ++ p.reg.name
  | pop p => "POP " ++ p.reg.name
  | cb => "PREFIX CB"

/-- The instruction's base cycles. -/
def cycles : Instr → Nat
  | nop | stop | halt | di | ei | daa | cpl | scf | ccf | rotateA _ => 4
  | ld .hlMem _ | ld _ .hlMem => 8
  | ld _ _ => 4
  | ldImm .hlMem => 12
  | ldImm _ => 8
  | loadA .high | storeA .high => 12
  | loadA .absolute | storeA .absolute => 16
  | loadA _ | storeA _ => 8
  | ldPairImm _ => 12
  | storeSp => 20
  | ldSpHl => 8
  | ldHlSpOffset => 12
  | inc .hlMem | dec .hlMem => 12
  | inc _ | dec _ => 4
  | incPair _ | decPair _ => 8
  | alu _ .hlMem => 8
  | alu _ _ => 4
  | aluImm _ => 8
  | addHl _ => 8
  | addSp => 16
  | jr .always => 12
  | jr _ => 8
  | jp .always => 16
  | jp _ => 12
  | jpHl => 4
  | call .always => 24
  | call _ => 12
  | ret .always => 16
  | ret _ => 8
  | reti => 16
  | rst _ => 16
  | push _ => 16
  | pop _ => 12
  | cb => 8

/-- The number of operand bytes after the opcode. -/
def operandLen : Instr → Nat
  | stop | ldImm _ | loadA .high | storeA .high | ldHlSpOffset | aluImm _ | addSp
  | jr _ | cb => 1
  | loadA .absolute | storeA .absolute | ldPairImm _ | storeSp | jp _ | call _ => 2
  | _ => 0

/-- Whether the instruction sets PC itself. -/
def jumps : Instr → Bool
  | jr _ | jp _ | jpHl | call _ | ret _ | reti | rst _ => true
  | _ => false

/-- The instruction's branch condition (`always` for all but conditional
branches). -/
def cond : Instr → Cond
  | jr c | jp c | call c | ret c => c
  | _ => .always

/-- The destination operand in the table's vocabulary. -/
def dst : Instr → Operand
  | ld d _ | ldImm d | inc d | dec d => .ofOperand8 d
  | loadA _ | alu _ _ | aluImm _ => .reg .a
  | storeA i => .ofIndirect i
  | ldPairImm p | incPair p | decPair p => .reg p.reg
  | storeSp => .memImm16
  | ldSpHl | addSp => .reg .sp
  | ldHlSpOffset | addHl _ => .reg .hl
  | pop p => .reg p.reg
  | _ => .implied

/-- The source operand in the table's vocabulary. -/
def src : Instr → Operand
  | ld _ s | alu _ s => .ofOperand8 s
  | ldImm _ | aluImm _ | addSp => .imm8
  | loadA i => .ofIndirect i
  | storeA _ => .reg .a
  | ldPairImm _ => .imm16
  | storeSp | ldHlSpOffset => .reg .sp
  | ldSpHl | jpHl => .reg .hl
  | addHl p => .reg p.reg
  | push p => .reg p.reg
  | rst n => .vector (UInt8.ofNat (n.val * 8))
  | _ => .implied

/-- The routine that runs the instruction. -/
def handler : Instr → Handler
  | nop => .nop
  | stop => .stop
  | halt => .halt
  | di => .di
  | ei => .ei
  | daa => .daa
  | cpl => .cpl
  | scf => .scf
  | ccf => .ccf
  | rotateA s => .rotateA s
  | ld _ _ | ldImm _ | loadA _ | storeA _ => .ld8
  | ldPairImm _ | ldSpHl => .ld16
  | storeSp => .ldA16Sp
  | ldHlSpOffset => .ldHlSpR8
  | inc _ => .inc8
  | dec _ => .dec8
  | incPair _ => .inc16
  | decPair _ => .dec16
  | alu op _ | aluImm op => .alu op
  | addHl _ => .addHl
  | addSp => .addSp
  | jr _ => .jr
  | jp _ => .jp
  | jpHl => .jpHl
  | call _ => .call
  | ret _ => .ret
  | reti => .reti
  | rst _ => .rst
  | push _ => .push
  | pop _ => .pop
  | cb => .prefixCb

/-- The instruction's opcode table line. -/
def descriptor (i : Instr) : Descriptor :=
  ⟨i.mnemonic, i.cycles, i.operandLen, i.dst, i.src, i.cond, i.jumps, true, i.handler⟩

end Instr
end Dmg
