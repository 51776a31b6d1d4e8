import Dmg.Proofs.Frame
import Dmg.Proofs.Regular
/-!
# Where execution continues, and what it costs

The opcode table gives each instruction its size, its base cycles, its branch
condition and whether it jumps, and a step that executes the instruction at
`p` follows that line exactly (`Console.step_follows_descriptor`).

An instruction that does not jump continues at `p` plus its size: its action
leaves PC on its first operand byte (`Instr.run_keeps_pc`) and the engine then
steps over the operands, STOP's padding byte and the CB operation byte
included. One that jumps continues past itself when its condition fails, and
at its branch target (`Instr.branchTarget`) when it holds: `p + 2` plus the
signed displacement for JR, the immediate word for JP and CALL, HL for
JP (HL), the table's restart vector for RST, and the word on top of the stack
for RET and RETI.

The cycles are the table's plus what the instruction reports on top
(`Instr.extraCycles`): 4 for a taken conditional JR or JP, 12 for a taken
conditional CALL or RET, and on the CB page 4 for BIT on (HL) and 8 for the
other operations on (HL), read off the bits of the CB byte. The report is the
instruction's effect, fixed by the instruction, the flags and the byte after
the opcode (`Instr.run_effect`).

Key definitions: `Effect.extraCycles`, `Instr.effect`, `Instr.branchTarget`,
`Instr.extraCycles`.
Key theorems: `Instr.run_effect`, `Console.execute_eq_ok_iff`,
`Console.step_eq_ok_iff`, `Instr.run_next_pc`, `Instr.extraCycles_effect`,
`Console.step_follows_descriptor`.
-/

namespace Dmg

/-- The cycles an effect adds to the instruction's base cost. -/
def Effect.extraCycles : Effect → Nat
  | .extra n => n
  | _ => 0

theorem Cpu.complete_extra (cpu : Cpu) (ime : Bool) (e : Effect) :
    (cpu.complete ime e).2.2 = e.extraCycles := by
  cases e <;> rfl

namespace Instr

/-- What the instruction reports to the engine when it finishes, the flags
being `f` and the byte after its opcode `sub`: STOP, HALT, DI, EI and RETI
their own requests; a branch that is taken `Exec.taken` of its extra cycles;
a CB operation its extra cycles on (HL); and nothing otherwise. -/
def effect (i : Instr) (f : Flags) (sub : UInt8) : Effect :=
  match i with
  | stop => .stop
  | halt => .halt
  | di => .disableInterrupts
  | ei => .enableInterrupts
  | reti => .enableNow
  | jr c | jp c => if c.holds f then Exec.taken c 4 else .done
  | call c | ret c => if c.holds f then Exec.taken c 12 else .done
  | cb => if (CbOp.decode sub).extraCycles = 0 then .done else .extra (CbOp.decode sub).extraCycles
  | _ => .done

/-- Where the instruction at `p` continues when it jumps, with registers `r`
and bus `bus`: `p + 2` plus the signed displacement after the opcode for JR,
the little-endian word after the opcode for JP and CALL, HL for JP (HL), the
restart vector of the opcode table for RST, and the little-endian word at SP
for RET and RETI. An instruction that does not jump continues past itself. -/
def branchTarget (i : Instr) (p : UInt16) (r : Registers) (bus : Bus) : UInt16 :=
  match i with
  | jr _ => UInt16.ofInt (p.toNat + 2 + Regular.signed (bus.readByte (p + 1)))
  | jp _ | call _ => word (bus.readByte (p + 2)) (bus.readByte (p + 1))
  | jpHl => r.hl
  | rst _ => ((i.descriptor.src.vector?).getD 0).toUInt16
  | ret _ | reti => word (bus.readByte (r.sp + 1)) (bus.readByte r.sp)
  | _ => p + UInt16.ofNat i.descriptor.size

/-- The cycles the instruction at `p` takes beyond its table entry, with
registers `r` and bus `bus`: 4 for a conditional JR or JP and 12 for a
conditional CALL or RET whose condition holds; for the CB page, whose
operation is the byte after the opcode, 4 for BIT on (HL) (bits 7-6 are 1 and
bits 2-0 are 6) and 8 for the other operations on (HL); none otherwise. -/
def extraCycles (i : Instr) (p : UInt16) (r : Registers) (bus : Bus) : Nat :=
  match i with
  | jr c | jp c => if c ≠ .always ∧ c.holds r.flags then 4 else 0
  | call c | ret c => if c ≠ .always ∧ c.holds r.flags then 12 else 0
  | cb =>
    if (bus.readByte (p + 1)).toNat % 8 = 6 then
      if (bus.readByte (p + 1)).toNat / 64 = 1 then 4 else 8
    else 0
  | _ => 0

end Instr

/-! ### The effect an instruction reports -/

open Exec

variable {σ : Type}

theorem CbOp.run_effect (o : CbOp) (c : Console σ) {e : Effect} {s : Console σ}
    (h : (o.run : Exec σ Effect).run c = .ok e s) :
    e = if o.extraCycles = 0 then .done else .extra o.extraCycles := by
  obtain ⟨op, target⟩ := o
  cases op <;> simp [CbOp.run] at h <;> exact h.1.symm

/-- A relative jump reads its displacement whether or not it jumps, and never
fails. -/
theorem Instr.run_jr (cnd : Cond) (c : Console σ) : ((Instr.jr cnd).run : Exec σ Effect).run c =
    if cnd.holds c.regs.flags then
      .ok (taken cnd 4)
        { c with regs := { c.regs with pc := c.regs.pc + 1 + Alu.signExtend (c.bus.readByte c.regs.pc) } }
    else .ok .done { c with regs := { c.regs with pc := c.regs.pc + 1 } } := by
  by_cases hc : cnd.holds c.regs.flags <;> simp [Instr.run, hc]

/-- An instruction that finishes reports the effect its opcode, the flags and
the byte at PC (its first operand byte) fix. -/
theorem Instr.run_effect (i : Instr) (c : Console σ) {e : Effect} {s : Console σ}
    (h : (i.run : Exec σ Effect).run c = .ok e s) :
    e = i.effect c.regs.flags (c.bus.readByte c.regs.pc) := by
  cases i with
  | jr cnd =>
    rw [run_jr] at h
    split_ifs at h with hc <;> cases h <;> simp [effect, hc]
  | jp cnd =>
    rw [run_jp] at h
    split_ifs at h with hpc hc <;> cases h <;> simp [effect, hc]
  | call cnd =>
    rw [run_call] at h
    split_ifs at h with hpc hc hsp <;> cases h <;> simp [effect, hc]
  | ret cnd =>
    rw [run_ret] at h
    split_ifs at h with hc hsp <;> cases h <;> simp [effect, hc]
  | cb =>
    simp only [Instr.run, EStateM.run_bind, run_imm8] at h
    exact CbOp.run_effect _ c h
  -- the word accesses that can fail: once they succeed, the effect is the plain one
  | reti => rw [run_reti] at h; split_ifs at h; cases h; rfl
  | ldPairImm _ => rw [run_ldPairImm] at h; split_ifs at h; cases h; rfl
  | storeSp => rw [run_storeSp] at h; split_ifs at h; cases h; rfl
  | push _ => rw [run_push] at h; split_ifs at h; cases h; rfl
  | pop _ => rw [run_pop] at h; split_ifs at h; cases h; rfl
  | rst _ => rw [run_rst] at h; split_ifs at h; cases h; rfl
  | loadA ind =>
    cases ind with
    | absolute => rw [run_loadA_absolute] at h; split_ifs at h; cases h; rfl
    | _ => simp [Instr.run, address] at h; exact h.1.symm
  | storeA ind =>
    cases ind with
    | absolute => rw [run_storeA_absolute] at h; split_ifs at h; cases h; rfl
    | _ => simp [Instr.run, address] at h; exact h.1.symm
  | inc o | dec o => cases o <;> simp [Instr.run] at h <;> exact h.1.symm
  | _ => simp [Instr.run] at h; exact h.1.symm

/-! ### Steps that execute an instruction -/

/-- The controller never changes the master enable. -/
@[simp] theorem Controller.ime_service (hooks : Hooks σ) (ctl : Controller σ) (bus : Bus) :
    (ctl.service hooks bus).1.ime = ctl.ime := by
  unfold Controller.service
  split <;> rfl

namespace Console

/-- Executing finishes exactly when the opcode at PC decodes to an instruction
`i` that, run with PC on its operands, finishes with effect `e`; PC then
moves past the operands unless `i` jumps, the count goes up, the engine
applies `e`, and the cycles are `i`'s plus the extra `e` reports. -/
theorem execute_eq_ok_iff (c : Console σ) (n : Nat) (s : Console σ) :
    (execute : Exec σ Nat).run c = .ok n s ↔
      ∃ i e s', decode (c.bus.readByte c.regs.pc) = some i ∧
        (i.run : Exec σ Effect).run { c with regs := { c.regs with pc := c.regs.pc + 1 } } = .ok e s' ∧
        s = { s' with
          regs := if i.jumps then s'.regs else s'.regs.advancePc (UInt16.ofNat i.operandLen)
          cpu := ({ s'.cpu with executed := s'.cpu.executed + 1 }.complete s'.interrupts.ime e).1
          interrupts := s'.interrupts.setIme
            ({ s'.cpu with executed := s'.cpu.executed + 1 }.complete s'.interrupts.ime e).2.1 } ∧
        n = i.cycles + e.extraCycles := by
  rw [execute_eq]
  simp only [EStateM.run_bind, run_regs, run_read]
  cases hd : decode (c.bus.readByte c.regs.pc) with
  | none => simp
  | some i =>
    simp only [EStateM.run_bind, run_setPc]
    generalize { c with regs := { c.regs with pc := c.regs.pc + 1 } } = c₁
    cases hr : (i.run : Exec σ Effect).run c₁ with
    | error f s' => simp [hr]
    | ok e s' =>
      -- what is left is the order of the two equations
      cases hj : i.jumps <;> simp [hr, hj, Cpu.complete_extra] <;>
        exact ⟨fun h => ⟨h.2.symm, h.1.symm⟩, fun h => ⟨h.2.symm, h.1.symm⟩⟩

/-- A step of an awake processor succeeds exactly when executing on the woken
console does, with the same cycles. -/
theorem step_eq_ok_iff (hooks : Hooks σ) {c : Console σ} (hawake : (c.cpu.wake c.bus).2 = false)
    (n : Nat) :
    (step hooks c).result = .ok n ↔
      ∃ s, (execute : Exec σ Nat).run { c with cpu := { c.cpu with halted := false, stopped := false } } =
        .ok n s := by
  unfold step stepWith
  rw [Cpu.wake_of_awake hawake]
  simp only [advance, cpuAdvance, Bool.false_eq_true, if_false, EStateM.run_bind]
  cases (execute : Exec σ Nat).run { c with cpu := { c.cpu with halted := false, stopped := false } } <;>
    simp

/-- After a step that executes an instruction, the controller and the PPU
leave the registers, the control state and the master enable as executing
left them. -/
theorem step_of_execute_eq_ok (hooks : Hooks σ) {c : Console σ} (hawake : (c.cpu.wake c.bus).2 = false)
    {n : Nat} {s : Console σ}
    (hx : (execute : Exec σ Nat).run { c with cpu := { c.cpu with halted := false, stopped := false } } =
      .ok n s) :
    (step hooks c).console.regs = s.regs ∧ (step hooks c).console.cpu = s.cpu ∧
      (step hooks c).console.interrupts.ime = s.interrupts.ime := by
  unfold step stepWith
  rw [Cpu.wake_of_awake hawake]
  simp [advance, cpuAdvance, hx]

end Console

/-! ### Where execution continues -/

/-- One past the opcode, then past `k` operand bytes. -/
theorem add_one_add_ofNat (p : UInt16) (k : Nat) : p + 1 + UInt16.ofNat k = p + UInt16.ofNat (1 + k) := by
  rw [UInt16.ofNat_add, ← UInt16.add_assoc]
  rfl

/-- Where an instruction that finishes leaves PC, once the engine has stepped
over the operands of one that does not jump: past the instruction, unless it
jumps and its condition holds, and then at its branch target. -/
theorem Instr.run_next_pc (i : Instr) (c : Console σ) {e : Effect} {s : Console σ}
    (h : (i.run : Exec σ Effect).run { c with regs := { c.regs with pc := c.regs.pc + 1 } } = .ok e s) :
    (if i.jumps then s.regs else s.regs.advancePc (UInt16.ofNat i.operandLen)).pc =
      if i.jumps ∧ i.cond.holds c.regs.flags then i.branchTarget c.regs.pc c.regs c.bus
      else c.regs.pc + UInt16.ofNat i.descriptor.size := by
  simp only [apply_ite Registers.pc, Registers.advancePc]
  cases hj : i.jumps with
  | false =>
    -- the action keeps PC on the operands, and the engine steps over them
    have hpc := Instr.run_keeps_pc hj { c with regs := { c.regs with pc := c.regs.pc + 1 } }
    simp only [final, h] at hpc
    simp only [hpc, Descriptor.size, descriptor, Bool.false_eq_true, false_and, if_false]
    exact add_one_add_ofNat _ _
  | true =>
    cases i with
    | jr cnd =>
      rw [run_jr] at h
      dsimp only at h
      split_ifs at h with hc <;> cases h <;> simp only [Registers.flags_with_pc] at hc
      · simp only [cond, hc, and_self, if_true, branchTarget]
        -- the sign extension is the signed displacement mod 65536
        obtain ⟨-, -, hs⟩ := Regular.signExtend_facts (c.bus.readByte (c.regs.pc + 1))
        refine (Regular.ofInt16_eq_iff.2 ?_).symm
        simp only [UInt16.toNat_add, UInt16.toNat_one]
        omega
      · simp [hc, cond, descriptor, Descriptor.size, operandLen, UInt16.add_assoc]
    | jp cnd =>
      rw [run_jp] at h
      dsimp only at h
      split_ifs at h with hpc hc <;> cases h <;> simp only [Registers.flags_with_pc] at hc <;>
        simp [hc, cond, branchTarget, descriptor, Descriptor.size, operandLen, Bus.loadWord, UInt16.add_assoc]
    | jpHl =>
      simp [Instr.run] at h
      obtain ⟨-, rfl⟩ := h
      simp only [cond, Cond.holds, and_self, if_true, branchTarget]
      rfl
    | call cnd =>
      rw [run_call] at h
      dsimp only at h
      split_ifs at h with hpc hc hsp <;> cases h <;> simp only [Registers.flags_with_pc] at hc <;>
        simp [hc, cond, branchTarget, descriptor, Descriptor.size, operandLen, Bus.loadWord, UInt16.add_assoc]
    | ret cnd =>
      rw [run_ret] at h
      dsimp only at h
      split_ifs at h with hc hsp <;> cases h <;> simp only [Registers.flags_with_pc] at hc <;>
        simp [hc, cond, branchTarget, descriptor, Descriptor.size, operandLen, Bus.loadWord]
    | reti =>
      rw [run_reti] at h
      split_ifs at h with hsp
      cases h
      simp [cond, Cond.holds, branchTarget, Bus.loadWord]
    | rst n =>
      rw [run_rst] at h
      split_ifs at h with hsp
      cases h
      -- the vector the table lists is the restart address
      have hv : UInt16.ofNat (n.val * 8) = (UInt8.ofNat (n.val * 8)).toUInt16 := by
        revert n
        decide
      simp only [cond, Cond.holds, and_self, if_true, branchTarget, descriptor, src, Operand.vector?,
        Option.getD_some]
      exact hv
    | _ => cases hj

/-! ### What it costs -/

/-- The CB page's extra cycles, read off the bits of the operation byte:
bits 2-0 equal to 6 name (HL), and bits 7-6 equal to 1 name `BIT`. -/
theorem CbOp.extraCycles_decode (b : UInt8) :
    (CbOp.decode b).extraCycles =
      if b.toNat % 8 = 6 then (if b.toNat / 64 = 1 then 4 else 8) else 0 := by
  revert b
  rw [forall_uint8]
  decide +kernel

/-- The extra cycles an instruction's effect reports are the ones its kind,
its condition and its CB byte call for. -/
theorem Instr.extraCycles_effect (i : Instr) (p : UInt16) (r : Registers) (bus : Bus) :
    (i.effect r.flags (bus.readByte (p + 1))).extraCycles = i.extraCycles p r bus := by
  cases i with
  | jr cnd | jp cnd | call cnd | ret cnd =>
    by_cases hc : cnd.holds r.flags <;> cases cnd <;>
      simp [effect, extraCycles, taken, hc, Effect.extraCycles]
  | cb =>
    simp only [effect, extraCycles, CbOp.extraCycles_decode]
    split_ifs <;> simp_all [Effect.extraCycles]
  | _ => rfl

/-! ### A step against the opcode table -/

/-- A step that executes the instruction at `p` follows its line `d` of the
opcode table. The action of an instruction that does not jump never moves PC;
execution continues at `p + d.size` unless `d.jumps` and the condition `d.cond`
holds, and then at the instruction's branch target; and the step takes
`d.cycles` plus the instruction's extra cycles. -/
theorem Console.step_follows_descriptor (hooks : Hooks σ) (c : Console σ)
    (hawake : (c.cpu.wake c.bus).2 = false) (n : Nat) (hok : (step hooks c).result = .ok n) :
    (∀ i : Instr, i.jumps = false → Exec.Keeps (fun c : Console σ => c.regs.pc) i.run) ∧
    ∃ i, decode (c.bus.readByte c.regs.pc) = some i ∧
      (step hooks c).console.regs.pc =
        (if (descriptorOf (c.bus.readByte c.regs.pc)).jumps ∧
            (descriptorOf (c.bus.readByte c.regs.pc)).cond.holds c.regs.flags then
          i.branchTarget c.regs.pc c.regs c.bus
        else c.regs.pc + UInt16.ofNat (descriptorOf (c.bus.readByte c.regs.pc)).size) ∧
      n = (descriptorOf (c.bus.readByte c.regs.pc)).cycles + i.extraCycles c.regs.pc c.regs c.bus := by
  refine ⟨fun i hj => Instr.run_keeps_pc hj, ?_⟩
  obtain ⟨s, hx⟩ := (step_eq_ok_iff hooks hawake n).1 hok
  obtain ⟨hregs, -, -⟩ := step_of_execute_eq_ok hooks hawake hx
  obtain ⟨i, e, s', hd, hr, rfl, rfl⟩ := (execute_eq_ok_iff _ n s).1 hx
  have he := Instr.run_effect i _ hr
  refine ⟨i, hd, ?_, ?_⟩
  · rw [hregs, descriptorOf_of_decode hd]
    exact Instr.run_next_pc i { c with cpu := { c.cpu with halted := false, stopped := false } } hr
  · rw [descriptorOf_of_decode hd, he]
    exact congrArg (i.cycles + ·) (Instr.extraCycles_effect i c.regs.pc c.regs c.bus)

/-- A console about to run `JR r8` from the last byte of memory; the
displacement is the first byte of the empty ROM window. -/
def Console.jrAtTop : Console Unit :=
  { Console.new Config.standard () with
    regs := { Registers.powerOn with pc := 0xFFFF }
    bus := (Bus.new .dmg).writeByte 0xFFFF 0x18 }

/-- `JR 0` at 0xFFFF takes its 12 cycles and continues at 0x0001, past the
wrap-around. -/
theorem Console.jr_wraps_around :
    (jrAtTop.cpu.wake jrAtTop.bus).2 = false ∧ (step Hooks.none jrAtTop).result = .ok 12 ∧
      (step Hooks.none jrAtTop).console.regs.pc = 0x0001 := by
  have hawake : (jrAtTop.cpu.wake jrAtTop.bus).2 = false := rfl
  have hbus : jrAtTop.bus = (Bus.new .dmg).writeByte 0xFFFF 0x18 := rfl
  have hpc : jrAtTop.regs.pc = 0xFFFF := rfl
  have hop : jrAtTop.bus.readByte jrAtTop.regs.pc = 0x18 := by
    rw [hbus, hpc]
    exact Bus.readByte_writeByte_self _ _ (by decide)
  -- the displacement byte lies in the ROM window, which the write does not reach
  have hdisp : jrAtTop.bus.readByte (jrAtTop.regs.pc + 1) = 0 := by
    rw [hbus, hpc]
    show ((Bus.new .dmg).writeByte 0xFFFF 0x18).memory[0] = 0
    rw [Bus.writeByte_rom _ _ _ (by decide)]
    simp [Bus.new, powerOnByte]
  have hd : decode (jrAtTop.bus.readByte jrAtTop.regs.pc) = some (.jr .always) := by rw [hop]; rfl
  have hx := (execute_eq_ok_iff { jrAtTop with cpu := { jrAtTop.cpu with halted := false, stopped := false } }
    12 _).2 ⟨_, _, _, hd, Instr.run_jr _ _, rfl, rfl⟩
  have hok := (step_eq_ok_iff Hooks.none hawake 12).2 ⟨_, hx⟩
  obtain ⟨-, i, hi, hnext, -⟩ := step_follows_descriptor Hooks.none jrAtTop hawake 12 hok
  obtain rfl := Option.some.inj (hi.symm.trans hd)
  refine ⟨hawake, hok, hnext.trans ?_⟩
  rw [descriptorOf_of_decode hd]
  simp only [Instr.descriptor, Instr.jumps, Instr.cond, Cond.holds, and_self, if_true, Instr.branchTarget,
    hdisp]
  rw [hpc]
  rfl

end Dmg
