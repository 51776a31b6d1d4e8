import Dmg.Console.Step
import Dmg.Proofs.Memory
/-!
# Running the processor's actions

An `Exec` action runs on a console and either finishes with a value or fails
with a fault, in both cases leaving a console behind. The run lemmas here give
each primitive's outcome outright: reads and register updates always succeed,
and the only failure is a word access at 0xFFFF (`Exec.topFault`), raised
before the access changes anything. Proofs about instructions rewrite with
these lemmas and never unfold a primitive.

A byte operand (`B C D E H L (HL) A`) is read and written through
`Console.operand` and `Console.setOperand`, the pure view of `Exec.readOp`
and `Exec.writeOp`.

`Exec.ThroughBus x` says that whatever `x` does, success or failure, the bus
after it is one the bus operations reach from the bus before. Binding keeps
it, so every instruction has it (`Instr.run_throughBus`).

Key definitions: `Exec.topFault`, `Console.operand`, `Console.setOperand`,
`Exec.final`, `Exec.ThroughBus`.
Key theorems: `Exec.run_imm16`, `Exec.run_push`, `Exec.run_pop`,
`Exec.run_writeWord`, `Console.stepWith_console`, `Instr.run_throughBus`,
`CbOp.run_throughBus`.
-/

namespace Dmg

/-- The byte an operand names. -/
def Console.operand {σ : Type} (c : Console σ) : Operand8 → UInt8
  | .reg r => c.regs.read8 r
  | .hlMem => c.bus.readByte c.regs.hl

/-- Write the byte an operand names: a register, or the bus at HL. -/
def Console.setOperand {σ : Type} (c : Console σ) : Operand8 → UInt8 → Console σ
  | .reg r, v => { c with regs := c.regs.write8 r v }
  | .hlMem, v => { c with bus := c.bus.writeByte c.regs.hl v }

namespace Exec

variable {σ : Type}

/-- The fault of a word access at 0xFFFF, whose second byte lies past the end
of memory. -/
def topFault : Fault := .addressOutOfRange 0xFFFF 2

/-- A two-byte range check fails exactly at 0xFFFF. -/
theorem checkRange_two (a : UInt16) :
    Bus.checkRange a.toNat 2 = if a = 0xFFFF then .error topFault else .ok () := by
  unfold Bus.checkRange topFault
  by_cases h : a = 0xFFFF
  · subst h; rfl
  · have hne : a.toNat ≠ 0xFFFF := fun h' => h (UInt16.toNat.inj h')
    have := a.toNat_lt
    rw [if_neg h, if_pos (by omega)]

theorem run_bind_ok {α β : Type} {x : Exec σ α} {f : α → Exec σ β} {c s : Console σ} {a : α}
    (h : x.run c = .ok a s) : (x >>= f).run c = (f a).run s := by
  simp [h]

theorem run_bind_error {α β : Type} {x : Exec σ α} {f : α → Exec σ β} {c s : Console σ}
    {e : Fault} (h : x.run c = .error e s) : (x >>= f).run c = .error e s := by
  simp [h]

@[simp] theorem run_map {α β : Type} (g : α → β) (x : Exec σ α) (c : Console σ) :
    (g <$> x).run c = match x.run c with
      | .ok a s => .ok (g a) s
      | .error e s => .error e s := by
  simp only [EStateM.run, Functor.map, EStateM.map]
  cases x c <;> rfl

@[simp] theorem run_throw {α : Type} (e : Fault) (c : Console σ) :
    (throw e : Exec σ α).run c = .error e c := rfl

/-! ### The primitives -/

variable (c : Console σ)

@[simp] theorem run_regs : (regs : Exec σ Registers).run c = .ok c.regs c := rfl

@[simp] theorem run_modifyRegs (f : Registers → Registers) :
    (modifyRegs f : Exec σ Unit).run c = .ok () { c with regs := f c.regs } := rfl

@[simp] theorem run_setPc (v : UInt16) :
    (setPc v : Exec σ Unit).run c = .ok () { c with regs := { c.regs with pc := v } } := rfl

@[simp] theorem run_read (a : UInt16) : (read a : Exec σ UInt8).run c = .ok (c.bus.readByte a) c :=
  rfl

@[simp] theorem run_write (a : UInt16) (v : UInt8) :
    (write a v : Exec σ Unit).run c = .ok () { c with bus := c.bus.writeByte a v } := rfl

@[simp] theorem run_imm8 : (imm8 : Exec σ UInt8).run c = .ok (c.bus.readByte c.regs.pc) c := rfl

@[simp] theorem run_readOp (o : Operand8) : (readOp o : Exec σ UInt8).run c = .ok (c.operand o) c := by
  cases o <;> rfl

@[simp] theorem run_writeOp (o : Operand8) (v : UInt8) :
    (writeOp o v : Exec σ Unit).run c = .ok () (c.setOperand o v) := by
  cases o <;> rfl

@[simp] theorem run_accumulate (op : AluOp) (v : UInt8) :
    (accumulate op v : Exec σ Unit).run c = .ok () { c with regs := c.regs.accumulate op v } := rfl

theorem run_readWord (a : UInt16) : (readWord a : Exec σ UInt16).run c =
    if a = 0xFFFF then .error topFault c else .ok (c.bus.loadWord a .little) c := by
  simp only [EStateM.run, readWord, Bus.readWord, checkRange_two]
  split_ifs <;> rfl

theorem run_writeWord (a v : UInt16) : (writeWord a v : Exec σ Unit).run c =
    if a = 0xFFFF then .error topFault c
    else .ok () { c with bus := c.bus.storeWord a v .little } := by
  simp only [EStateM.run, writeWord, checkRange_two]
  split_ifs <;> rfl

/-- The operand word at PC; fails when PC is 0xFFFF. -/
theorem run_imm16 : (imm16 : Exec σ UInt16).run c =
    if c.regs.pc = 0xFFFF then .error topFault c
    else .ok (c.bus.loadWord c.regs.pc .little) c := by
  simp only [imm16, EStateM.run_bind, run_regs]
  exact run_readWord c _

/-- A push writes at SP - 2, which is 0xFFFF exactly when SP is 1. -/
theorem run_push (v : UInt16) : (push v : Exec σ Unit).run c =
    if c.regs.sp = 1 then .error topFault c
    else .ok () { c with bus := c.bus.storeWord (c.regs.sp - 2) v .little,
                         regs := { c.regs with sp := c.regs.sp - 2 } } := by
  have hsp : c.regs.sp - 2 = 0xFFFF ↔ c.regs.sp = 1 := by grind
  by_cases h : c.regs.sp = 1 <;> simp [push, run_writeWord, h, hsp]

theorem run_pop : (pop : Exec σ UInt16).run c =
    if c.regs.sp = 0xFFFF then .error topFault c
    else .ok (c.bus.loadWord c.regs.sp .little) { c with regs := { c.regs with sp := c.regs.sp + 2 } } := by
  by_cases h : c.regs.sp = 0xFFFF
  · simp [pop, run_readWord, h]
  · simp only [pop, EStateM.run_bind, run_regs, run_readWord, h, if_false]
    rfl

/-! ### Actions that use the bus only through its operations -/

/-- The console an action leaves behind, whether it finishes or fails. -/
def final {α : Type} (x : Exec σ α) (c : Console σ) : Console σ :=
  match x.run c with
  | .ok _ s => s
  | .error _ s => s

/-- Whatever `x` does, it changes the bus only through the bus's operations. -/
def ThroughBus {α : Type} (x : Exec σ α) : Prop := ∀ c, Bus.Reach c.bus (final x c).bus

namespace ThroughBus

variable {α β : Type}

theorem of_run_ok {x : Exec σ α} (h : ∀ c, ∃ a s, x.run c = .ok a s ∧ Bus.Reach c.bus s.bus) :
    ThroughBus x := by
  intro c
  obtain ⟨a, s, hr, hs⟩ := h c
  simpa [final, hr] using hs

/-- An action that leaves the bus alone. -/
theorem of_bus_eq {x : Exec σ α} (h : ∀ c, (final x c).bus = c.bus) : ThroughBus x := by
  intro c
  rw [h c]
  exact Bus.Reach.refl _

protected theorem pure (a : α) : ThroughBus (pure a : Exec σ α) := of_bus_eq fun _ => rfl

protected theorem bind {x : Exec σ α} {f : α → Exec σ β} (hx : ThroughBus x)
    (hf : ∀ a, ThroughBus (f a)) : ThroughBus (x >>= f) := by
  intro c
  have h := hx c
  unfold final at h ⊢
  rw [EStateM.run_bind]
  cases hr : x.run c with
  | ok a s =>
    rw [hr] at h
    exact h.trans (hf a s)
  | error e s =>
    rw [hr] at h
    exact h

protected theorem ite {p : Prop} [Decidable p] {x y : Exec σ α} (hx : ThroughBus x)
    (hy : ThroughBus y) : ThroughBus (if p then x else y) := by
  split
  · exact hx
  · exact hy

theorem regs : ThroughBus (regs : Exec σ Registers) := of_bus_eq fun _ => rfl

theorem modifyRegs (f : Registers → Registers) : ThroughBus (modifyRegs f : Exec σ Unit) :=
  of_bus_eq fun _ => rfl

theorem setPc (v : UInt16) : ThroughBus (setPc v : Exec σ Unit) := of_bus_eq fun _ => rfl

theorem read (a : UInt16) : ThroughBus (read a : Exec σ UInt8) := of_bus_eq fun _ => rfl

theorem imm8 : ThroughBus (imm8 : Exec σ UInt8) := of_bus_eq fun _ => rfl

theorem readOp (o : Operand8) : ThroughBus (readOp o : Exec σ UInt8) :=
  of_bus_eq fun c => by simp [final]

theorem accumulate (op : AluOp) (v : UInt8) : ThroughBus (accumulate op v : Exec σ Unit) :=
  of_bus_eq fun _ => rfl

theorem readWord (a : UInt16) : ThroughBus (readWord a : Exec σ UInt16) :=
  of_bus_eq fun c => by by_cases h : a = 0xFFFF <;> simp [final, run_readWord, h]

theorem imm16 : ThroughBus (imm16 : Exec σ UInt16) := ThroughBus.regs.bind fun _ => readWord _

theorem write (a : UInt16) (v : UInt8) : ThroughBus (write a v : Exec σ Unit) :=
  of_run_ok fun c => ⟨_, _, run_write c a v, Bus.Reach.writeByte _ _ _⟩

theorem writeOp (o : Operand8) (v : UInt8) : ThroughBus (writeOp o v : Exec σ Unit) := by
  cases o with
  | reg r => exact of_bus_eq fun _ => rfl
  | hlMem => exact ThroughBus.regs.bind fun _ => write _ _

theorem writeWord (a v : UInt16) : ThroughBus (writeWord a v : Exec σ Unit) := by
  intro c
  by_cases h : a = 0xFFFF
  · simpa [final, run_writeWord, h] using Bus.Reach.refl c.bus
  · simpa [final, run_writeWord, h] using Bus.Reach.storeWord c.bus a v .little

theorem push (v : UInt16) : ThroughBus (push v : Exec σ Unit) :=
  ThroughBus.regs.bind fun _ => (writeWord _ _).bind fun _ => modifyRegs _

theorem pop : ThroughBus (pop : Exec σ UInt16) :=
  ThroughBus.regs.bind fun _ => (readWord _).bind fun _ => (modifyRegs _).bind fun _ => .pure _

theorem address (i : Indirect) : ThroughBus (address i : Exec σ UInt16) := by
  cases i with
  | bc | de | highC => exact ThroughBus.regs.bind fun _ => .pure _
  | hlInc | hlDec => exact ThroughBus.regs.bind fun _ => (modifyRegs _).bind fun _ => .pure _
  | high => exact imm8.bind fun _ => .pure _
  | absolute => exact imm16

end ThroughBus

end Exec

/-- The console a step leaves is where the rest of the step leaves the console
with the processor woken or left asleep, whether the step succeeds or fails. -/
theorem Console.stepWith_console {σ : Type} (rest : Bool → Exec σ Nat) (c : Console σ) :
    (Console.stepWith rest c).console =
      Exec.final (rest (c.cpu.wake c.bus).2) { c with cpu := (c.cpu.wake c.bus).1 } := by
  unfold Console.stepWith Exec.final
  rcases c.cpu.wake c.bus with ⟨cpu, asleep⟩
  dsimp only
  cases (rest asleep).run { c with cpu } <;> rfl

open Exec.ThroughBus

/-- A CB-page operation changes the bus only by writing its operand back. -/
theorem CbOp.run_throughBus {σ : Type} (c : CbOp) : Exec.ThroughBus (c.run : Exec σ Effect) := by
  unfold CbOp.run
  refine (readOp _).bind fun v => ?_
  -- the `do` block shares its final `return` between the four kinds of operation
  dsimp only
  cases c.op with
  | shift s =>
    exact regs.bind fun _ => (modifyRegs _).bind fun _ => (writeOp _ _).bind fun _ => .pure _
  | test b => exact (modifyRegs _).bind fun _ => .pure _
  | reset b => exact (writeOp _ _).bind fun _ => .pure _
  | set b => exact (writeOp _ _).bind fun _ => .pure _

/-- Every instruction changes the bus only through byte and word writes: the
shape of each proof is the shape of the instruction's action. -/
theorem Instr.run_throughBus {σ : Type} : ∀ i : Instr, Exec.ThroughBus (i.run : Exec σ Effect)
  | .nop | .stop | .halt | .di | .ei => .pure _
  | .daa | .cpl | .scf | .ccf | .rotateA _ | .ldSpHl | .incPair _ | .decPair _ | .addHl _
  | .inc (.reg _) | .dec (.reg _) => (modifyRegs _).bind fun _ => .pure _
  | .ld _ _ => (readOp _).bind fun _ => (writeOp _ _).bind fun _ => .pure _
  | .ldImm _ => imm8.bind fun _ => (writeOp _ _).bind fun _ => .pure _
  | .loadA _ => (address _).bind fun _ => (read _).bind fun _ => (modifyRegs _).bind fun _ => .pure _
  | .storeA _ =>
    regs.bind fun _ => (address _).bind fun _ => (write _ _).bind fun _ => .pure _
  | .ldPairImm _ => imm16.bind fun _ => (modifyRegs _).bind fun _ => .pure _
  | .storeSp => imm16.bind fun _ => regs.bind fun _ => (writeWord _ _).bind fun _ => .pure _
  | .ldHlSpOffset | .addSp => imm8.bind fun _ => (modifyRegs _).bind fun _ => .pure _
  | .inc .hlMem | .dec .hlMem =>
    regs.bind fun _ => (read _).bind fun _ => (modifyRegs _).bind fun _ =>
      (write _ _).bind fun _ => .pure _
  | .alu _ _ => (readOp _).bind fun _ => (accumulate _ _).bind fun _ => .pure _
  | .aluImm _ => imm8.bind fun _ => (accumulate _ _).bind fun _ => .pure _
  | .jr _ => imm8.bind fun _ => regs.bind fun _ =>
    .ite ((setPc _).bind fun _ => .pure _) ((setPc _).bind fun _ => .pure _)
  | .jp _ => imm16.bind fun _ => regs.bind fun _ =>
    .ite ((setPc _).bind fun _ => .pure _) ((setPc _).bind fun _ => .pure _)
  | .jpHl => regs.bind fun _ => (setPc _).bind fun _ => .pure _
  | .call _ => imm16.bind fun _ => regs.bind fun _ =>
    .ite ((Exec.ThroughBus.push _).bind fun _ => (setPc _).bind fun _ => .pure _) ((setPc _).bind fun _ => .pure _)
  | .ret _ => regs.bind fun _ =>
    .ite (Exec.ThroughBus.pop.bind fun _ => (setPc _).bind fun _ => .pure _) (.pure _)
  | .reti => Exec.ThroughBus.pop.bind fun _ => (setPc _).bind fun _ => .pure _
  | .rst _ => regs.bind fun _ => (Exec.ThroughBus.push _).bind fun _ => (setPc _).bind fun _ => .pure _
  | .push _ => regs.bind fun _ => (Exec.ThroughBus.push _).bind fun _ => .pure _
  | .pop _ => Exec.ThroughBus.pop.bind fun _ => (modifyRegs _).bind fun _ => .pure _
  | .cb => imm8.bind fun _ => CbOp.run_throughBus _

end Dmg
