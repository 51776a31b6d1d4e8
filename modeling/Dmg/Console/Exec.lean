import Dmg.Console.State
import Dmg.Cpu.Decode
import Dmg.Cpu.Table
import Dmg.Cpu.CbPage
/-!
# Executing instructions

`Instr.run` is what one instruction does to the registers and memory of a
console, as an action in `Exec`: a state action over the console that can
fail with a `Fault`, keeping what it did before failing. When an instruction
runs, PC points at its first operand byte. An instruction that does not jump
leaves PC there (the engine then steps over the operands); one that jumps
leaves PC where execution continues.

The only failures are word accesses at 0xFFFF: an immediate word in the last
byte of memory, a push with SP = 1, a pop with SP = 0xFFFF, and `LD (a16),SP`
to 0xFFFF. Every one of them comes before the instruction's first write.

Besides its writes, an instruction hands the engine an `Effect`: extra
cycles for a taken conditional branch or a CB operation on (HL), or a request
to disable or enable interrupts, halt or stop.

Key definitions: `Exec`, `Effect`, `Instr.run`, `CbOp.run`.
-/

namespace Dmg

/-- A step of the console that may fail, keeping its state at the failure. -/
abbrev Exec (σ : Type) := EStateM Fault (Console σ)

/-- What an instruction asks of the engine beyond its writes. -/
inductive Effect where
  | done
  /-- Cycles on top of the instruction's base cost. -/
  | extra (n : Nat)
  | disableInterrupts
  /-- `EI`: the master enable turns on after the next instruction. -/
  | enableInterrupts
  /-- `RETI`: the master enable turns on at once. -/
  | enableNow
  | halt
  | stop
deriving DecidableEq, Repr

namespace Exec

variable {σ : Type}

/-- The registers. -/
def regs : Exec σ Registers := fun c => .ok c.regs c

/-- Change the registers. -/
def modifyRegs (f : Registers → Registers) : Exec σ Unit :=
  fun c => .ok () { c with regs := f c.regs }

/-- Set PC. -/
def setPc (v : UInt16) : Exec σ Unit := modifyRegs fun r => { r with pc := v }

/-- Read a byte. -/
def read (a : UInt16) : Exec σ UInt8 := fun c => .ok (c.bus.readByte a) c

/-- Write a byte through the bus. -/
def write (a : UInt16) (v : UInt8) : Exec σ Unit :=
  fun c => .ok () { c with bus := c.bus.writeByte a v }

/-- Read a little-endian word; fails at 0xFFFF. -/
def readWord (a : UInt16) : Exec σ UInt16 := fun c =>
  match c.bus.readWord a .little with
  | .ok v => .ok v c
  | .error e => .error e c

/-- Write a little-endian word; fails at 0xFFFF without writing. -/
def writeWord (a v : UInt16) : Exec σ Unit := fun c =>
  match Bus.checkRange a.toNat 2 with
  | .ok _ => .ok () { c with bus := c.bus.storeWord a v .little }
  | .error e => .error e c

/-- The operand byte at PC. -/
def imm8 : Exec σ UInt8 := fun c => .ok (c.bus.readByte c.regs.pc) c

/-- The operand word at PC; fails when PC is 0xFFFF. -/
def imm16 : Exec σ UInt16 := do readWord (← regs).pc

/-- Push a word: it is written at SP - 2, and only then does SP move there. -/
def push (v : UInt16) : Exec σ Unit := do
  let sp := (← regs).sp - 2
  writeWord sp v
  modifyRegs fun r => { r with sp }

/-- Pop a word: it is read at SP, then SP moves up by two. -/
def pop : Exec σ UInt16 := do
  let sp := (← regs).sp
  let v ← readWord sp
  modifyRegs fun r => { r with sp := sp + 2 }
  return v

/-- Read a byte operand. -/
def readOp : Operand8 → Exec σ UInt8
  | .reg r => do return (← regs).read8 r
  | .hlMem => do read (← regs).hl

/-- Write a byte operand. -/
def writeOp : Operand8 → UInt8 → Exec σ Unit
  | .reg r, v => modifyRegs fun x => x.write8 r v
  | .hlMem, v => do write (← regs).hl v

/-- The address of an accumulator load or store; `(HL+)` and `(HL-)` move HL
after taking it. -/
def address : Indirect → Exec σ UInt16
  | .bc => do return (← regs).bc
  | .de => do return (← regs).de
  | .hlInc => do
    let hl := (← regs).hl
    modifyRegs fun r => r.setHl (hl + 1)
    return hl
  | .hlDec => do
    let hl := (← regs).hl
    modifyRegs fun r => r.setHl (hl - 1)
    return hl
  | .high => do return 0xFF00 ||| (← imm8).toUInt16
  | .highC => do return 0xFF00 ||| (← regs).c.toUInt16
  | .absolute => imm16

/-- Apply an accumulator operation to A and the operand `v`. -/
def accumulate (op : AluOp) (v : UInt8) : Exec σ Unit := modifyRegs (·.accumulate op v)

/-- The effect of a taken branch: nothing extra when unconditional, else `n`
extra cycles. -/
def taken (c : Cond) (n : Nat) : Effect := if c = .always then .done else .extra n

end Exec

open Exec

/-- Run a CB-page operation: a shift writes its result and sets Z and C from
it; `BIT` sets Z to the complement of the bit, clears N and sets H, keeping C;
`RES` and `SET` change one bit and no flag. -/
def CbOp.run {σ : Type} (c : CbOp) : Exec σ Effect := do
  let v ← readOp c.target
  match c.op with
  | .shift s =>
    let r := ((← regs).aluRotate s v).1
    modifyRegs fun x => (x.aluRotate s v).2
    writeOp c.target r
  | .test b =>
    modifyRegs fun x =>
      ((x.setFlag .z (v &&& (1 <<< UInt8.ofNat b.val) == 0)).setFlag .n false).setFlag .h true
  | .reset b => writeOp c.target (v &&& ~~~(1 <<< UInt8.ofNat b.val))
  | .set b => writeOp c.target (v ||| (1 <<< UInt8.ofNat b.val))
  return if c.extraCycles = 0 then .done else .extra c.extraCycles

/-- Run an instruction, with PC at its first operand byte. -/
def Instr.run {σ : Type} : Instr → Exec σ Effect
  | .nop => return .done
  | .stop => return .stop
  | .halt => return .halt
  | .di => return .disableInterrupts
  | .ei => return .enableInterrupts
  | .daa => do
    modifyRegs (·.aluDaa)
    return .done
  | .cpl => do
    modifyRegs fun r => ({ r with a := ~~~r.a }.setFlag .n true).setFlag .h true
    return .done
  | .scf => do
    modifyRegs fun r => ((r.setFlag .n false).setFlag .h false).setFlag .c true
    return .done
  | .ccf => do
    modifyRegs fun r => ((r.setFlag .n false).setFlag .h false).setFlag .c !r.flags.carry
    return .done
  | .rotateA s => do
    modifyRegs fun r =>
      let rotated := r.aluRotate s r.a
      { rotated.2 with a := rotated.1 }.setFlag .z false
    return .done
  | .ld d s => do
    let v ← readOp s
    writeOp d v
    return .done
  | .ldImm d => do
    let v ← imm8
    writeOp d v
    return .done
  | .loadA i => do
    let a ← address i
    let v ← read a
    modifyRegs fun r => { r with a := v }
    return .done
  | .storeA i => do
    let v := (← regs).a
    let a ← address i
    write a v
    return .done
  | .ldPairImm p => do
    let v ← imm16
    modifyRegs fun r => r.set p.reg v
    return .done
  | .storeSp => do
    let a ← imm16
    writeWord a (← regs).sp
    return .done
  | .ldSpHl => do
    modifyRegs fun r => { r with sp := r.hl }
    return .done
  | .ldHlSpOffset => do
    let d ← imm8
    modifyRegs fun r =>
      let sum := r.aluAdd16Signed r.sp d
      sum.2.setHl sum.1
    return .done
  | .inc (.reg r) => do
    modifyRegs fun x => x.inc r.reg
    return .done
  | .inc .hlMem => do
    let a := (← regs).hl
    let v ← read a
    modifyRegs fun r => (r.inc8 v).2
    write a (v + 1)
    return .done
  | .dec (.reg r) => do
    modifyRegs fun x => x.dec r.reg
    return .done
  | .dec .hlMem => do
    let a := (← regs).hl
    let v ← read a
    modifyRegs fun r => (r.dec8 v).2
    write a (v - 1)
    return .done
  | .incPair p => do
    modifyRegs fun r => r.inc p.reg
    return .done
  | .decPair p => do
    modifyRegs fun r => r.dec p.reg
    return .done
  | .alu op s => do
    let v ← readOp s
    accumulate op v
    return .done
  | .aluImm op => do
    let v ← imm8
    accumulate op v
    return .done
  | .addHl p => do
    modifyRegs fun r => r.aluAdd16Hl (r.get p.reg)
    return .done
  | .addSp => do
    let d ← imm8
    modifyRegs fun r =>
      let sum := r.aluAdd16Signed r.sp d
      { sum.2 with sp := sum.1 }
    return .done
  | .jr c => do
    let d ← imm8
    let r ← regs
    let next := r.pc + 1
    if c.holds r.flags then
      setPc (next + Alu.signExtend d)
      return taken c 4
    else
      setPc next
      return .done
  | .jp c => do
    let t ← imm16
    let r ← regs
    if c.holds r.flags then
      setPc t
      return taken c 4
    else
      setPc (r.pc + 2)
      return .done
  | .jpHl => do
    setPc (← regs).hl
    return .done
  | .call c => do
    let t ← imm16
    let r ← regs
    let ret := r.pc + 2
    if c.holds r.flags then
      Exec.push ret
      setPc t
      return taken c 12
    else
      setPc ret
      return .done
  | .ret c => do
    if c.holds (← regs).flags then
      let t ← Exec.pop
      setPc t
      return taken c 12
    else return .done
  | .reti => do
    let t ← Exec.pop
    setPc t
    return .enableNow
  | .rst n => do
    Exec.push (← regs).pc
    setPc (UInt16.ofNat (n.val * 8))
    return .done
  | .push p => do
    Exec.push ((← regs).get p.reg)
    return .done
  | .pop p => do
    let v ← Exec.pop
    modifyRegs fun r => r.set p.reg v
    return .done
  | .cb => do
    let b ← imm8
    (CbOp.decode b).run

/-! ### The table's routines

The engine runs an opcode's table line. The routines that take operands read
and write them through `Descriptor.read8`, `Descriptor.write8`,
`Descriptor.read16` and `Descriptor.wideReg`, which accept only the shapes of
operand they can use and fail with `Fault.malformedInstruction` on any other.
The routines that take none, or only the line's condition, run as the
instruction they belong to. -/

namespace Descriptor

variable {σ : Type} (d : Descriptor)

/-- The fault for an operand the line's routine cannot use. -/
def malformed : Fault := .malformedInstruction d.mnemonic

/-- The address of a memory operand; `(HL+)` and `(HL-)` move the register
after taking it. -/
def address : Operand → Exec σ UInt16
  | .mem r => do return (← regs).get r
  | .memInc r => do
    let a := (← regs).get r
    modifyRegs fun x => x.set r (a + 1)
    return a
  | .memDec r => do
    let a := (← regs).get r
    modifyRegs fun x => x.set r (a - 1)
    return a
  | .memImm16 => imm16
  | .highImm8 => do return 0xFF00 ||| (← imm8).toUInt16
  | .highReg r => do return 0xFF00 ||| ((← regs).get r &&& 0x00FF)
  | _ => throw d.malformed

/-- Read a byte operand: a byte register, the immediate byte, or memory. -/
def read8 : Operand → Exec σ UInt8
  | .reg r => if r.isWide then throw d.malformed else do return loByte ((← regs).get r)
  | .imm8 => imm8
  | o => if o.isMemory then do read (← d.address o) else throw d.malformed

/-- Write a byte operand: a byte register or memory. -/
def write8 : Operand → UInt8 → Exec σ Unit
  | .reg r, v => if r.isWide then throw d.malformed else modifyRegs fun x => x.set r v.toUInt16
  | o, v => if o.isMemory then do write (← d.address o) v else throw d.malformed

/-- Read a word operand: a wide register or the immediate word. -/
def read16 : Operand → Exec σ UInt16
  | .reg r => if r.isWide then do return (← regs).get r else throw d.malformed
  | .imm16 => imm16
  | _ => throw d.malformed

/-- The wide register a word operand names. -/
def wideReg : Operand → Exec σ Reg
  | .reg r => if r.isWide then pure r else throw d.malformed
  | _ => throw d.malformed

/-- A CB-page operation on its target among `B C D E H L (HL) A`, read and
written as an operand of the line. On (HL), `BIT` costs 4 cycles more and the
others 8. -/
def runCb (o : CbOp) : Exec σ Effect := do
  let target := Operand.ofOperand8 o.target
  let v ← d.read8 target
  let result ← match o.op with
    | .shift s => do
      let r := ((← regs).aluRotate s v).1
      modifyRegs fun x => (x.aluRotate s v).2
      pure (some r)
    | .test b => do
      modifyRegs fun x =>
        ((x.setFlag .z (v &&& (1 <<< UInt8.ofNat b.val) == 0)).setFlag .n false).setFlag .h true
      pure none
    | .reset b => pure (some (v &&& ~~~(1 <<< UInt8.ofNat b.val)))
    | .set b => pure (some (v ||| (1 <<< UInt8.ofNat b.val)))
  match result with
  | some r => d.write8 target r
  | none => pure ()
  return match target.isMemory, result.isSome with
    | false, _ => .done
    | true, false => .extra 4
    | true, true => .extra 8

/-- `PREFIX CB`: the operation byte at PC picks the operation. -/
def prefixCb : Exec σ Effect := do d.runCb (CbOp.decode (← imm8))

/-- Run the line's routine, with PC on the first operand byte. -/
def run : Exec σ Effect :=
  match d.handler with
  | .nop | .unknown => Instr.nop.run
  | .halt => Instr.halt.run
  | .stop => Instr.stop.run
  | .di => Instr.di.run
  | .ei => Instr.ei.run
  | .ld8 => do
    let v ← d.read8 d.src
    d.write8 d.dst v
    return .done
  | .ld16 => do
    let v ← d.read16 d.src
    let r ← d.wideReg d.dst
    modifyRegs fun x => x.set r v
    return .done
  | .ldA16Sp => Instr.storeSp.run
  | .ldHlSpR8 => Instr.ldHlSpOffset.run
  | .inc8 => do
    match d.dst with
    | .reg r => modifyRegs fun x => x.inc r
    | o => do
      let v ← d.read8 o
      modifyRegs fun x => (x.inc8 v).2
      d.write8 o (v + 1)
    return .done
  | .dec8 => do
    match d.dst with
    | .reg r => modifyRegs fun x => x.dec r
    | o => do
      let v ← d.read8 o
      modifyRegs fun x => (x.dec8 v).2
      d.write8 o (v - 1)
    return .done
  | .inc16 => do
    let r ← d.wideReg d.dst
    modifyRegs fun x => x.inc r
    return .done
  | .dec16 => do
    let r ← d.wideReg d.dst
    modifyRegs fun x => x.dec r
    return .done
  | .alu op => do
    let v ← d.read8 d.src
    accumulate op v
    return .done
  | .addHl => do
    let v ← d.read16 d.src
    modifyRegs fun r => r.aluAdd16Hl v
    return .done
  | .addSp => Instr.addSp.run
  | .daa => Instr.daa.run
  | .cpl => Instr.cpl.run
  | .scf => Instr.scf.run
  | .ccf => Instr.ccf.run
  | .rotateA s => (Instr.rotateA s).run
  | .jr => (Instr.jr d.cond).run
  | .jp => (Instr.jp d.cond).run
  | .jpHl => do
    let t ← d.read16 d.src
    setPc t
    return .done
  | .call => (Instr.call d.cond).run
  | .ret => (Instr.ret d.cond).run
  | .reti => Instr.reti.run
  | .rst =>
    match d.src with
    | .vector v => do
      Exec.push (← regs).pc
      setPc v.toUInt16
      return .done
    | _ => throw d.malformed
  | .push => do
    let v ← d.read16 d.src
    Exec.push v
    return .done
  | .pop => do
    let r ← d.wideReg d.dst
    let v ← Exec.pop
    modifyRegs fun x => x.set r v
    return .done
  | .prefixCb => d.prefixCb

end Descriptor

end Dmg
