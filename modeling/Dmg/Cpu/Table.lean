import Dmg.Cpu.Instr
/-!
# The opcode table

The 256 lines of the primary opcode table, one per opcode, as the processor
runs them: each names its mnemonic, base cycles, operand bytes, destination
and source operands, branch condition, whether it jumps, and its routine. A
line is written as `Descriptor.op` with the fields that differ from it; the
eleven holes are `Descriptor.unmapped`.

Key definitions: `instructions`, `descriptorOf`.
-/

namespace Dmg

open Descriptor (op unmapped)

set_option maxRecDepth 2000 in
/-- The primary opcode table, indexed by opcode. -/
def instructions : Vector Descriptor 256 :=
  #v[
    -- 0x00
    op "NOP" 4 .nop,
    { op "LD BC,d16" 12 .ld16 with operandLen := 2, dst := .reg .bc, src := .imm16 },
    { op "LD (BC),A" 8 .ld8 with dst := .mem .bc, src := .reg .a },
    { op "INC BC" 8 .inc16 with dst := .reg .bc },
    { op "INC B" 4 .inc8 with dst := .reg .b },
    { op "DEC B" 4 .dec8 with dst := .reg .b },
    { op "LD B,d8" 8 .ld8 with operandLen := 1, dst := .reg .b, src := .imm8 },
    op "RLCA" 4 (.rotateA .rlc),
    { op "LD (a16),SP" 20 .ldA16Sp with operandLen := 2, dst := .memImm16, src := .reg .sp },
    { op "ADD HL,BC" 8 .addHl with dst := .reg .hl, src := .reg .bc },
    { op "LD A,(BC)" 8 .ld8 with dst := .reg .a, src := .mem .bc },
    { op "DEC BC" 8 .dec16 with dst := .reg .bc },
    { op "INC C" 4 .inc8 with dst := .reg .c },
    { op "DEC C" 4 .dec8 with dst := .reg .c },
    { op "LD C,d8" 8 .ld8 with operandLen := 1, dst := .reg .c, src := .imm8 },
    op "RRCA" 4 (.rotateA .rrc),
    -- 0x10
    { op "STOP" 4 .stop with operandLen := 1 },
    { op "LD DE,d16" 12 .ld16 with operandLen := 2, dst := .reg .de, src := .imm16 },
    { op "LD (DE),A" 8 .ld8 with dst := .mem .de, src := .reg .a },
    { op "INC DE" 8 .inc16 with dst := .reg .de },
    { op "INC D" 4 .inc8 with dst := .reg .d },
    { op "DEC D" 4 .dec8 with dst := .reg .d },
    { op "LD D,d8" 8 .ld8 with operandLen := 1, dst := .reg .d, src := .imm8 },
    op "RLA" 4 (.rotateA .rl),
    { op "JR r8" 12 .jr with operandLen := 1, jumps := true },
    { op "ADD HL,DE" 8 .addHl with dst := .reg .hl, src := .reg .de },
    { op "LD A,(DE)" 8 .ld8 with dst := .reg .a, src := .mem .de },
    { op "DEC DE" 8 .dec16 with dst := .reg .de },
    { op "INC E" 4 .inc8 with dst := .reg .e },
    { op "DEC E" 4 .dec8 with dst := .reg .e },
    { op "LD E,d8" 8 .ld8 with operandLen := 1, dst := .reg .e, src := .imm8 },
    op "RRA" 4 (.rotateA .rr),
    -- 0x20
    { op "JR NZ,r8" 8 .jr with operandLen := 1, cond := .notZero, jumps := true },
    { op "LD HL,d16" 12 .ld16 with operandLen := 2, dst := .reg .hl, src := .imm16 },
    { op "LD (HL+),A" 8 .ld8 with dst := .memInc .hl, src := .reg .a },
    { op "INC HL" 8 .inc16 with dst := .reg .hl },
    { op "INC H" 4 .inc8 with dst := .reg .h },
    { op "DEC H" 4 .dec8 with dst := .reg .h },
    { op "LD H,d8" 8 .ld8 with operandLen := 1, dst := .reg .h, src := .imm8 },
    op "DAA" 4 .daa,
    { op "JR Z,r8" 8 .jr with operandLen := 1, cond := .zero, jumps := true },
    { op "ADD HL,HL" 8 .addHl with dst := .reg .hl, src := .reg .hl },
    { op "LD A,(HL+)" 8 .ld8 with dst := .reg .a, src := .memInc .hl },
    { op "DEC HL" 8 .dec16 with dst := .reg .hl },
    { op "INC L" 4 .inc8 with dst := .reg .l },
    { op "DEC L" 4 .dec8 with dst := .reg .l },
    { op "LD L,d8" 8 .ld8 with operandLen := 1, dst := .reg .l, src := .imm8 },
    op "CPL" 4 .cpl,
    -- 0x30
    { op "JR NC,r8" 8 .jr with operandLen := 1, cond := .noCarry, jumps := true },
    { op "LD SP,d16" 12 .ld16 with operandLen := 2, dst := .reg .sp, src := .imm16 },
    { op "LD (HL-),A" 8 .ld8 with dst := .memDec .hl, src := .reg .a },
    { op "INC SP" 8 .inc16 with dst := .reg .sp },
    { op "INC (HL)" 12 .inc8 with dst := .mem .hl },
    { op "DEC (HL)" 12 .dec8 with dst := .mem .hl },
    { op "LD (HL),d8" 12 .ld8 with operandLen := 1, dst := .mem .hl, src := .imm8 },
    op "SCF" 4 .scf,
    { op "JR C,r8" 8 .jr with operandLen := 1, cond := .carry, jumps := true },
    { op "ADD HL,SP" 8 .addHl with dst := .reg .hl, src := .reg .sp },
    { op "LD A,(HL-)" 8 .ld8 with dst := .reg .a, src := .memDec .hl },
    { op "DEC SP" 8 .dec16 with dst := .reg .sp },
    { op "INC A" 4 .inc8 with dst := .reg .a },
    { op "DEC A" 4 .dec8 with dst := .reg .a },
    { op "LD A,d8" 8 .ld8 with operandLen := 1, dst := .reg .a, src := .imm8 },
    op "CCF" 4 .ccf,
    -- 0x40
    { op "LD B,B" 4 .ld8 with dst := .reg .b, src := .reg .b },
    { op "LD B,C" 4 .ld8 with dst := .reg .b, src := .reg .c },
    { op "LD B,D" 4 .ld8 with dst := .reg .b, src := .reg .d },
    { op "LD B,E" 4 .ld8 with dst := .reg .b, src := .reg .e },
    { op "LD B,H" 4 .ld8 with dst := .reg .b, src := .reg .h },
    { op "LD B,L" 4 .ld8 with dst := .reg .b, src := .reg .l },
    { op "LD B,(HL)" 8 .ld8 with dst := .reg .b, src := .mem .hl },
    { op "LD B,A" 4 .ld8 with dst := .reg .b, src := .reg .a },
    { op "LD C,B" 4 .ld8 with dst := .reg .c, src := .reg .b },
    { op "LD C,C" 4 .ld8 with dst := .reg .c, src := .reg .c },
    { op "LD C,D" 4 .ld8 with dst := .reg .c, src := .reg .d },
    { op "LD C,E" 4 .ld8 with dst := .reg .c, src := .reg .e },
    { op "LD C,H" 4 .ld8 with dst := .reg .c, src := .reg .h },
    { op "LD C,L" 4 .ld8 with dst := .reg .c, src := .reg .l },
    { op "LD C,(HL)" 8 .ld8 with dst := .reg .c, src := .mem .hl },
    { op "LD C,A" 4 .ld8 with dst := .reg .c, src := .reg .a },
    -- 0x50
    { op "LD D,B" 4 .ld8 with dst := .reg .d, src := .reg .b },
    { op "LD D,C" 4 .ld8 with dst := .reg .d, src := .reg .c },
    { op "LD D,D" 4 .ld8 with dst := .reg .d, src := .reg .d },
    { op "LD D,E" 4 .ld8 with dst := .reg .d, src := .reg .e },
    { op "LD D,H" 4 .ld8 with dst := .reg .d, src := .reg .h },
    { op "LD D,L" 4 .ld8 with dst := .reg .d, src := .reg .l },
    { op "LD D,(HL)" 8 .ld8 with dst := .reg .d, src := .mem .hl },
    { op "LD D,A" 4 .ld8 with dst := .reg .d, src := .reg .a },
    { op "LD E,B" 4 .ld8 with dst := .reg .e, src := .reg .b },
    { op "LD E,C" 4 .ld8 with dst := .reg .e, src := .reg .c },
    { op "LD E,D" 4 .ld8 with dst := .reg .e, src := .reg .d },
    { op "LD E,E" 4 .ld8 with dst := .reg .e, src := .reg .e },
    { op "LD E,H" 4 .ld8 with dst := .reg .e, src := .reg .h },
    { op "LD E,L" 4 .ld8 with dst := .reg .e, src := .reg .l },
    { op "LD E,(HL)" 8 .ld8 with dst := .reg .e, src := .mem .hl },
    { op "LD E,A" 4 .ld8 with dst := .reg .e, src := .reg .a },
    -- 0x60
    { op "LD H,B" 4 .ld8 with dst := .reg .h, src := .reg .b },
    { op "LD H,C" 4 .ld8 with dst := .reg .h, src := .reg .c },
    { op "LD H,D" 4 .ld8 with dst := .reg .h, src := .reg .d },
    { op "LD H,E" 4 .ld8 with dst := .reg .h, src := .reg .e },
    { op "LD H,H" 4 .ld8 with dst := .reg .h, src := .reg .h },
    { op "LD H,L" 4 .ld8 with dst := .reg .h, src := .reg .l },
    { op "LD H,(HL)" 8 .ld8 with dst := .reg .h, src := .mem .hl },
    { op "LD H,A" 4 .ld8 with dst := .reg .h, src := .reg .a },
    { op "LD L,B" 4 .ld8 with dst := .reg .l, src := .reg .b },
    { op "LD L,C" 4 .ld8 with dst := .reg .l, src := .reg .c },
    { op "LD L,D" 4 .ld8 with dst := .reg .l, src := .reg .d },
    { op "LD L,E" 4 .ld8 with dst := .reg .l, src := .reg .e },
    { op "LD L,H" 4 .ld8 with dst := .reg .l, src := .reg .h },
    { op "LD L,L" 4 .ld8 with dst := .reg .l, src := .reg .l },
    { op "LD L,(HL)" 8 .ld8 with dst := .reg .l, src := .mem .hl },
    { op "LD L,A" 4 .ld8 with dst := .reg .l, src := .reg .a },
    -- 0x70
    { op "LD (HL),B" 8 .ld8 with dst := .mem .hl, src := .reg .b },
    { op "LD (HL),C" 8 .ld8 with dst := .mem .hl, src := .reg .c },
    { op "LD (HL),D" 8 .ld8 with dst := .mem .hl, src := .reg .d },
    { op "LD (HL),E" 8 .ld8 with dst := .mem .hl, src := .reg .e },
    { op "LD (HL),H" 8 .ld8 with dst := .mem .hl, src := .reg .h },
    { op "LD (HL),L" 8 .ld8 with dst := .mem .hl, src := .reg .l },
    op "HALT" 4 .halt,
    { op "LD (HL),A" 8 .ld8 with dst := .mem .hl, src := .reg .a },
    { op "LD A,B" 4 .ld8 with dst := .reg .a, src := .reg .b },
    { op "LD A,C" 4 .ld8 with dst := .reg .a, src := .reg .c },
    { op "LD A,D" 4 .ld8 with dst := .reg .a, src := .reg .d },
    { op "LD A,E" 4 .ld8 with dst := .reg .a, src := .reg .e },
    { op "LD A,H" 4 .ld8 with dst := .reg .a, src := .reg .h },
    { op "LD A,L" 4 .ld8 with dst := .reg .a, src := .reg .l },
    { op "LD A,(HL)" 8 .ld8 with dst := .reg .a, src := .mem .hl },
    { op "LD A,A" 4 .ld8 with dst := .reg .a, src := .reg .a },
    -- 0x80
    { op "ADD A,B" 4 (.alu .add) with dst := .reg .a, src := .reg .b },
    { op "ADD A,C" 4 (.alu .add) with dst := .reg .a, src := .reg .c },
    { op "ADD A,D" 4 (.alu .add) with dst := .reg .a, src := .reg .d },
    { op "ADD A,E" 4 (.alu .add) with dst := .reg .a, src := .reg .e },
    { op "ADD A,H" 4 (.alu .add) with dst := .reg .a, src := .reg .h },
    { op "ADD A,L" 4 (.alu .add) with dst := .reg .a, src := .reg .l },
    { op "ADD A,(HL)" 8 (.alu .add) with dst := .reg .a, src := .mem .hl },
    { op "ADD A,A" 4 (.alu .add) with dst := .reg .a, src := .reg .a },
    { op "ADC A,B" 4 (.alu .adc) with dst := .reg .a, src := .reg .b },
    { op "ADC A,C" 4 (.alu .adc) with dst := .reg .a, src := .reg .c },
    { op "ADC A,D" 4 (.alu .adc) with dst := .reg .a, src := .reg .d },
    { op "ADC A,E" 4 (.alu .adc) with dst := .reg .a, src := .reg .e },
    { op "ADC A,H" 4 (.alu .adc) with dst := .reg .a, src := .reg .h },
    { op "ADC A,L" 4 (.alu .adc) with dst := .reg .a, src := .reg .l },
    { op "ADC A,(HL)" 8 (.alu .adc) with dst := .reg .a, src := .mem .hl },
    { op "ADC A,A" 4 (.alu .adc) with dst := .reg .a, src := .reg .a },
    -- 0x90
    { op "SUB B" 4 (.alu .sub) with dst := .reg .a, src := .reg .b },
    { op "SUB C" 4 (.alu .sub) with dst := .reg .a, src := .reg .c },
    { op "SUB D" 4 (.alu .sub) with dst := .reg .a, src := .reg .d },
    { op "SUB E" 4 (.alu .sub) with dst := .reg .a, src := .reg .e },
    { op "SUB H" 4 (.alu .sub) with dst := .reg .a, src := .reg .h },
    { op "SUB L" 4 (.alu .sub) with dst := .reg .a, src := .reg .l },
    { op "SUB (HL)" 8 (.alu .sub) with dst := .reg .a, src := .mem .hl },
    { op "SUB A" 4 (.alu .sub) with dst := .reg .a, src := .reg .a },
    { op "SBC A,B" 4 (.alu .sbc) with dst := .reg .a, src := .reg .b },
    { op "SBC A,C" 4 (.alu .sbc) with dst := .reg .a, src := .reg .c },
    { op "SBC A,D" 4 (.alu .sbc) with dst := .reg .a, src := .reg .d },
    { op "SBC A,E" 4 (.alu .sbc) with dst := .reg .a, src := .reg .e },
    { op "SBC A,H" 4 (.alu .sbc) with dst := .reg .a, src := .reg .h },
    { op "SBC A,L" 4 (.alu .sbc) with dst := .reg .a, src := .reg .l },
    { op "SBC A,(HL)" 8 (.alu .sbc) with dst := .reg .a, src := .mem .hl },
    { op "SBC A,A" 4 (.alu .sbc) with dst := .reg .a, src := .reg .a },
    -- 0xA0
    { op "AND B" 4 (.alu .and) with dst := .reg .a, src := .reg .b },
    { op "AND C" 4 (.alu .and) with dst := .reg .a, src := .reg .c },
    { op "AND D" 4 (.alu .and) with dst := .reg .a, src := .reg .d },
    { op "AND E" 4 (.alu .and) with dst := .reg .a, src := .reg .e },
    { op "AND H" 4 (.alu .and) with dst := .reg .a, src := .reg .h },
    { op "AND L" 4 (.alu .and) with dst := .reg .a, src := .reg .l },
    { op "AND (HL)" 8 (.alu .and) with dst := .reg .a, src := .mem .hl },
    { op "AND A" 4 (.alu .and) with dst := .reg .a, src := .reg .a },
    { op "XOR B" 4 (.alu .xor) with dst := .reg .a, src := .reg .b },
    { op "XOR C" 4 (.alu .xor) with dst := .reg .a, src := .reg .c },
    { op "XOR D" 4 (.alu .xor) with dst := .reg .a, src := .reg .d },
    { op "XOR E" 4 (.alu .xor) with dst := .reg .a, src := .reg .e },
    { op "XOR H" 4 (.alu .xor) with dst := .reg .a, src := .reg .h },
    { op "XOR L" 4 (.alu .xor) with dst := .reg .a, src := .reg .l },
    { op "XOR (HL)" 8 (.alu .xor) with dst := .reg .a, src := .mem .hl },
    { op "XOR A" 4 (.alu .xor) with dst := .reg .a, src := .reg .a },
    -- 0xB0
    { op "OR B" 4 (.alu .or) with dst := .reg .a, src := .reg .b },
    { op "OR C" 4 (.alu .or) with dst := .reg .a, src := .reg .c },
    { op "OR D" 4 (.alu .or) with dst := .reg .a, src := .reg .d },
    { op "OR E" 4 (.alu .or) with dst := .reg .a, src := .reg .e },
    { op "OR H" 4 (.alu .or) with dst := .reg .a, src := .reg .h },
    { op "OR L" 4 (.alu .or) with dst := .reg .a, src := .reg .l },
    { op "OR (HL)" 8 (.alu .or) with dst := .reg .a, src := .mem .hl },
    { op "OR A" 4 (.alu .or) with dst := .reg .a, src := .reg .a },
    { op "CP B" 4 (.alu .cp) with dst := .reg .a, src := .reg .b },
    { op "CP C" 4 (.alu .cp) with dst := .reg .a, src := .reg .c },
    { op "CP D" 4 (.alu .cp) with dst := .reg .a, src := .reg .d },
    { op "CP E" 4 (.alu .cp) with dst := .reg .a, src := .reg .e },
    { op "CP H" 4 (.alu .cp) with dst := .reg .a, src := .reg .h },
    { op "CP L" 4 (.alu .cp) with dst := .reg .a, src := .reg .l },
    { op "CP (HL)" 8 (.alu .cp) with dst := .reg .a, src := .mem .hl },
    { op "CP A" 4 (.alu .cp) with dst := .reg .a, src := .reg .a },
    -- 0xC0
    { op "RET NZ" 8 .ret with cond := .notZero, jumps := true },
    { op "POP BC" 12 .pop with dst := .reg .bc },
    { op "JP NZ,a16" 12 .jp with operandLen := 2, cond := .notZero, jumps := true },
    { op "JP a16" 16 .jp with operandLen := 2, jumps := true },
    { op "CALL NZ,a16" 12 .call with operandLen := 2, cond := .notZero, jumps := true },
    { op "PUSH BC" 16 .push with src := .reg .bc },
    { op "ADD A,d8" 8 (.alu .add) with operandLen := 1, dst := .reg .a, src := .imm8 },
    { op "RST 00H" 16 .rst with src := .vector 0x00, jumps := true },
    { op "RET Z" 8 .ret with cond := .zero, jumps := true },
    { op "RET" 16 .ret with jumps := true },
    { op "JP Z,a16" 12 .jp with operandLen := 2, cond := .zero, jumps := true },
    { op "PREFIX CB" 8 .prefixCb with operandLen := 1 },
    { op "CALL Z,a16" 12 .call with operandLen := 2, cond := .zero, jumps := true },
    { op "CALL a16" 24 .call with operandLen := 2, jumps := true },
    { op "ADC A,d8" 8 (.alu .adc) with operandLen := 1, dst := .reg .a, src := .imm8 },
    { op "RST 08H" 16 .rst with src := .vector 0x08, jumps := true },
    -- 0xD0
    { op "RET NC" 8 .ret with cond := .noCarry, jumps := true },
    { op "POP DE" 12 .pop with dst := .reg .de },
    { op "JP NC,a16" 12 .jp with operandLen := 2, cond := .noCarry, jumps := true },
    unmapped,
    { op "CALL NC,a16" 12 .call with operandLen := 2, cond := .noCarry, jumps := true },
    { op "PUSH DE" 16 .push with src := .reg .de },
    { op "SUB d8" 8 (.alu .sub) with operandLen := 1, dst := .reg .a, src := .imm8 },
    { op "RST 10H" 16 .rst with src := .vector 0x10, jumps := true },
    { op "RET C" 8 .ret with cond := .carry, jumps := true },
    { op "RETI" 16 .reti with jumps := true },
    { op "JP C,a16" 12 .jp with operandLen := 2, cond := .carry, jumps := true },
    unmapped,
    { op "CALL C,a16" 12 .call with operandLen := 2, cond := .carry, jumps := true },
    unmapped,
    { op "SBC A,d8" 8 (.alu .sbc) with operandLen := 1, dst := .reg .a, src := .imm8 },
    { op "RST 18H" 16 .rst with src := .vector 0x18, jumps := true },
    -- 0xE0
    { op "LDH (a8),A" 12 .ld8 with operandLen := 1, dst := .highImm8, src := .reg .a },
    { op "POP HL" 12 .pop with dst := .reg .hl },
    { op "LD (C),A" 8 .ld8 with dst := .highReg .c, src := .reg .a },
    unmapped,
    unmapped,
    { op "PUSH HL" 16 .push with src := .reg .hl },
    { op "AND d8" 8 (.alu .and) with operandLen := 1, dst := .reg .a, src := .imm8 },
    { op "RST 20H" 16 .rst with src := .vector 0x20, jumps := true },
    { op "ADD SP,r8" 16 .addSp with operandLen := 1, dst := .reg .sp, src := .imm8 },
    { op "JP (HL)" 4 .jpHl with src := .reg .hl, jumps := true },
    { op "LD (a16),A" 16 .ld8 with operandLen := 2, dst := .memImm16, src := .reg .a },
    unmapped,
    unmapped,
    unmapped,
    { op "XOR d8" 8 (.alu .xor) with operandLen := 1, dst := .reg .a, src := .imm8 },
    { op "RST 28H" 16 .rst with src := .vector 0x28, jumps := true },
    -- 0xF0
    { op "LDH A,(a8)" 12 .ld8 with operandLen := 1, dst := .reg .a, src := .highImm8 },
    { op "POP AF" 12 .pop with dst := .reg .af },
    { op "LD A,(C)" 8 .ld8 with dst := .reg .a, src := .highReg .c },
    op "DI" 4 .di,
    unmapped,
    { op "PUSH AF" 16 .push with src := .reg .af },
    { op "OR d8" 8 (.alu .or) with operandLen := 1, dst := .reg .a, src := .imm8 },
    { op "RST 30H" 16 .rst with src := .vector 0x30, jumps := true },
    { op "LD HL,SP+r8" 12 .ldHlSpR8 with operandLen := 1, dst := .reg .hl, src := .reg .sp },
    { op "LD SP,HL" 8 .ld16 with dst := .reg .sp, src := .reg .hl },
    { op "LD A,(a16)" 16 .ld8 with operandLen := 2, dst := .reg .a, src := .memImm16 },
    op "EI" 4 .ei,
    unmapped,
    unmapped,
    { op "CP d8" 8 (.alu .cp) with operandLen := 1, dst := .reg .a, src := .imm8 },
    { op "RST 38H" 16 .rst with src := .vector 0x38, jumps := true }
  ]

/-- The table line of an opcode. -/
def descriptorOf (opcode : UInt8) : Descriptor := instructions.get opcode.toFin

end Dmg
