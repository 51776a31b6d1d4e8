import Dmg.Proofs.Loading
/-!
# Halting and stopping

`HALT` and `STOP` put the processor to sleep. A halted processor wakes once
some interrupt is both requested and allowed (IE & IF & 0x1F ≠ 0); a stopped
one once the joypad interrupt is requested (IF bit 4), whatever IE and the
other requests say. Neither looks at the master enable.

A step of a sleeping processor idles (`Console.idle`): it costs four cycles,
logs nothing, and only the interrupt controller and the PPU run, so the
registers and the whole control state (the count of instructions executed
and the EI delay among it) stay as they were. Steps that begin asleep
therefore idle one after another for as long as the wake-up condition fails
(`Console.runFrom_idle`), the controller clearing requests as it services
them. The step that begins with the condition holding clears the flag and is
then exactly the step of a processor that was awake: it executes the
instruction at PC, which `HALT` left one past itself and `STOP` two past
itself, its padding byte skipped.

The processor's step alone, with no PPU, behaves the same: a sleeping step
is then the controller's pass and nothing else (`Console.cpuIdle`), and its
runs are the passes one after another (`Console.cpuSteps_of_sleeps`).

Halted and stopped are never set together (`Cpu.Exclusive`): the flags are
set only by executing `HALT` or `STOP`, which only an awake processor does.

Key definitions: `Console.idle`, `Console.cpuIdle`, `Cpu.Exclusive`.
Key theorems: `Cpu.wake_halted`, `Cpu.wake_stopped`, `Console.step_of_sleeps`,
`Console.stepWith_of_wakes`, `Console.step_of_pure_run`, `Console.runFrom_idle`,
`Console.cpuSteps_of_sleeps`, `Console.Reachable.exclusive`,
`Console.halt_stop_sleep_and_wake`.
-/

namespace Dmg

/-! ### Waking up -/

namespace Cpu

/-- A processor neither halted nor stopped stays as it is and executes. -/
theorem wake_awake {cpu : Cpu} (bus : Bus) (hh : cpu.halted = false) (hs : cpu.stopped = false) :
    cpu.wake bus = (cpu, false) := by
  simp [wake, hh, hs]

/-- A halted processor wakes exactly when an interrupt is requested and
allowed, and then only its halt flag is cleared. -/
theorem wake_halted {cpu : Cpu} (bus : Bus) (hh : cpu.halted = true) (hs : cpu.stopped = false) :
    cpu.wake bus =
      if activeSet bus = 0 then (cpu, true) else ({ cpu with halted := false }, false) := by
  by_cases ha : activeSet bus = 0 <;> simp [wake, hh, hs, ha]

/-- A stopped processor sleeps on while the joypad interrupt is not requested. -/
theorem wake_of_stopped {cpu : Cpu} {bus : Bus} (hs : cpu.stopped = true)
    (hj : pendingSet bus &&& Source.joypad.mask = 0) : cpu.wake bus = (cpu, true) := by
  simp [wake, hs, hj]

/-- A stopped processor that is not halted wakes exactly when the joypad
interrupt is requested, and then only its stop flag is cleared. -/
theorem wake_stopped {cpu : Cpu} (bus : Bus) (hs : cpu.stopped = true) (hh : cpu.halted = false) :
    cpu.wake bus =
      if pendingSet bus &&& Source.joypad.mask = 0 then (cpu, true)
      else ({ cpu with stopped := false }, false) := by
  by_cases hj : pendingSet bus &&& Source.joypad.mask = 0
  · rw [if_pos hj, wake_of_stopped hs hj]
  · simp [wake, hs, hh, hj]

/-- At most one of the halt and stop flags is set. -/
def Exclusive (cpu : Cpu) : Prop := cpu.halted = false ∨ cpu.stopped = false

/-- Waking only clears flags. -/
theorem exclusive_wake {cpu : Cpu} (h : cpu.Exclusive) (bus : Bus) : (cpu.wake bus).1.Exclusive := by
  unfold wake
  dsimp only
  split_ifs <;> simp_all [Exclusive]

/-- The bookkeeping after an instruction sets at most one flag on a processor
that had neither. -/
theorem exclusive_complete {cpu : Cpu} (hh : cpu.halted = false) (hs : cpu.stopped = false)
    (ime : Bool) (e : Effect) : (cpu.complete ime e).1.Exclusive := by
  obtain ⟨hhalt, hstop⟩ := complete_sleeps cpu ime e
  unfold Exclusive
  rw [hhalt, hstop, hh, hs]
  cases e <;> simp

end Cpu

/-! ### Steps of a sleeping processor -/

namespace Console

variable {σ : Type} {hooks : Hooks σ} {c : Console σ}

/-- The console after a step in which the processor sleeps: the controller's
pass, the PPU's step and four cycles, the registers and the control state as
they were. -/
def idle (hooks : Hooks σ) (c : Console σ) : Console σ :=
  { c with
    interrupts := (c.interrupts.service hooks c.bus).1
    bus := (c.ppu.step (c.interrupts.service hooks c.bus).2.1).2
    ppu := (c.ppu.step (c.interrupts.service hooks c.bus).2.1).1
    cycles := c.cycles + 4 }

@[simp] theorem regs_idle : (c.idle hooks).regs = c.regs := rfl

@[simp] theorem cpu_idle : (c.idle hooks).cpu = c.cpu := rfl

theorem cpu_iterate_idle (n : Nat) : ((idle hooks)^[n] c).cpu = c.cpu :=
  congrFun (Function.iterate_invariant (f := idle hooks) (g := Console.cpu) rfl n) c

theorem regs_iterate_idle (n : Nat) : ((idle hooks)^[n] c).regs = c.regs :=
  congrFun (Function.iterate_invariant (f := idle hooks) (g := Console.regs) rfl n) c

/-- A step that begins with the processor sleeping on, its control state
untouched, idles. -/
theorem step_of_sleeps (h : c.cpu.wake c.bus = (c.cpu, true)) :
    step hooks c = ⟨c.idle hooks, #[], .ok 4⟩ := by
  unfold step stepWith
  rw [h]
  rfl

/-- A step that begins with the processor waking runs as the step of the
woken processor, the console's step and the processor's alike. -/
theorem stepWith_of_wakes (rest : Bool → Exec σ Nat) {cpu : Cpu} (h : c.cpu.wake c.bus = (cpu, false))
    (hh : cpu.halted = false) (hs : cpu.stopped = false) : stepWith rest c = stepWith rest { c with cpu } := by
  unfold stepWith
  rw [h, Cpu.wake_awake _ hh hs]

/-- `n` steps that each begin asleep idle: they take four cycles each, log
nothing, and end at the `n`-th idle console. -/
theorem runFrom_idle (n : Nat) (c : Console σ) (trace : Array String) (acc : Nat)
    (h : ∀ k < n, c.cpu.wake ((idle hooks)^[k] c).bus = (c.cpu, true)) :
    runFrom hooks n c trace acc = ⟨(idle hooks)^[n] c, trace, .ok (acc + 4 * n)⟩ := by
  induction n generalizing c acc with
  | zero => rfl
  | succ n ih =>
    have hstep : step hooks c = ⟨c.idle hooks, #[], .ok 4⟩ := step_of_sleeps (h 0 (by omega))
    -- the idle console has the same processor, so the later steps sleep on as well
    have hrest : ∀ k < n, (c.idle hooks).cpu.wake ((idle hooks)^[k] (c.idle hooks)).bus =
        ((c.idle hooks).cpu, true) := fun k hk => by
      rw [cpu_idle, ← Function.iterate_succ_apply]
      exact h (k + 1) (by omega)
    rw [runFrom, hstep]
    dsimp only
    rw [Array.append_empty, ih (c.idle hooks) (acc + 4) hrest, ← Function.iterate_succ_apply]
    congr 2
    omega

/-- A halted processor idles for as long as no interrupt is both requested and
allowed. -/
theorem runFor_halted (hh : c.cpu.halted = true) (hs : c.cpu.stopped = false) (n : Nat)
    (hq : ∀ k < n, activeSet ((idle hooks)^[k] c).bus = 0) :
    runFor hooks n c = ⟨(idle hooks)^[n] c, #[], .ok (4 * n)⟩ := by
  have hsleep : ∀ k < n, c.cpu.wake ((idle hooks)^[k] c).bus = (c.cpu, true) := fun k hk => by
    rw [Cpu.wake_halted _ hh hs, if_pos (hq k hk)]
  rw [runFor, runFrom_idle n c #[] 0 hsleep, Nat.zero_add]

/-- A stopped processor idles for as long as the joypad interrupt is not
requested, whatever else is. -/
theorem runFor_stopped (hs : c.cpu.stopped = true) (n : Nat)
    (hq : ∀ k < n, pendingSet ((idle hooks)^[k] c).bus &&& Source.joypad.mask = 0) :
    runFor hooks n c = ⟨(idle hooks)^[n] c, #[], .ok (4 * n)⟩ := by
  have hsleep : ∀ k < n, c.cpu.wake ((idle hooks)^[k] c).bus = (c.cpu, true) :=
    fun k hk => Cpu.wake_of_stopped hs (hq k hk)
  rw [runFor, runFrom_idle n c #[] 0 hsleep, Nat.zero_add]

/-- A halted processor with an interrupt requested and allowed wakes, and the
step is the woken processor's. -/
theorem stepWith_wakes_halted (rest : Bool → Exec σ Nat) (hh : c.cpu.halted = true)
    (hs : c.cpu.stopped = false) (ha : activeSet c.bus ≠ 0) :
    stepWith rest c = stepWith rest { c with cpu := { c.cpu with halted := false } } :=
  stepWith_of_wakes rest (by rw [Cpu.wake_halted _ hh hs, if_neg ha]) rfl hs

/-- A stopped processor with the joypad interrupt requested wakes, and the
step is the woken processor's. -/
theorem stepWith_wakes_stopped (rest : Bool → Exec σ Nat) (hs : c.cpu.stopped = true)
    (hh : c.cpu.halted = false) (hj : pendingSet c.bus &&& Source.joypad.mask ≠ 0) :
    stepWith rest c = stepWith rest { c with cpu := { c.cpu with stopped := false } } :=
  stepWith_of_wakes rest (by rw [Cpu.wake_stopped _ hs hh, if_neg hj]) hh rfl

/-! ### Steps of a sleeping processor alone

Without the PPU, a step of a sleeping processor is the controller's pass
alone: the interrupts and the bus it leaves, and nothing else changed. -/

/-- The console after a step of the processor alone in which it sleeps: the
controller's pass, and the rest as it was. -/
def cpuIdle (hooks : Hooks σ) (c : Console σ) : Console σ :=
  { c with
    interrupts := (c.interrupts.service hooks c.bus).1
    bus := (c.interrupts.service hooks c.bus).2.1 }

@[simp] theorem regs_cpuIdle : (c.cpuIdle hooks).regs = c.regs := rfl

@[simp] theorem cpu_cpuIdle : (c.cpuIdle hooks).cpu = c.cpu := rfl

@[simp] theorem ppu_cpuIdle : (c.cpuIdle hooks).ppu = c.ppu := rfl

@[simp] theorem cycles_cpuIdle : (c.cpuIdle hooks).cycles = c.cycles := rfl

theorem cpu_iterate_cpuIdle (n : Nat) : ((cpuIdle hooks)^[n] c).cpu = c.cpu :=
  congrFun (Function.iterate_invariant (f := cpuIdle hooks) (g := Console.cpu) rfl n) c

theorem regs_iterate_cpuIdle (n : Nat) : ((cpuIdle hooks)^[n] c).regs = c.regs :=
  congrFun (Function.iterate_invariant (f := cpuIdle hooks) (g := Console.regs) rfl n) c

/-- A step of the processor alone that begins with it sleeping on idles. -/
theorem cpuStep_of_sleeps (h : c.cpu.wake c.bus = (c.cpu, true)) :
    cpuStep hooks c = ⟨c.cpuIdle hooks, #[], .ok 4⟩ := by
  unfold cpuStep stepWith
  rw [h]
  rfl

/-- Steps of the processor alone that each begin asleep idle one after
another, for as long as the processor sleeps on: the `k`-th step from the
`k`-th idle console is the next idle one. -/
theorem cpuSteps_of_sleeps (n : Nat) (c : Console σ)
    (h : ∀ k < n, c.cpu.wake ((cpuIdle hooks)^[k] c).bus = (c.cpu, true)) :
    (∀ k < n, cpuStep hooks ((cpuIdle hooks)^[k] c) = ⟨(cpuIdle hooks)^[k + 1] c, #[], .ok 4⟩) ∧
      (fun d => (cpuStep hooks d).console)^[n] c = (cpuIdle hooks)^[n] c := by
  have hstep : ∀ k < n, cpuStep hooks ((cpuIdle hooks)^[k] c) = ⟨(cpuIdle hooks)^[k + 1] c, #[], .ok 4⟩ :=
    fun k hk => by
      rw [Function.iterate_succ_apply']
      apply cpuStep_of_sleeps
      rw [cpu_iterate_cpuIdle]
      exact h k hk
  refine ⟨hstep, ?_⟩
  -- the run is the iterate of its steps' consoles, each of them the next idle console
  clear h
  induction n with
  | zero => rfl
  | succ n ih =>
    rw [Function.iterate_succ_apply', ih fun k hk => hstep k (by omega)]
    show (cpuStep hooks ((cpuIdle hooks)^[n] c)).console = _
    rw [hstep n (by omega)]

/-- Idle steps of the processor alone keep every byte but IF that the
handlers keep. -/
theorem readByte_iterate_cpuIdle {a : UInt16} (hk : hooks.KeepsByte a) (ha : a ≠ ioIf) (n : Nat) :
    ((cpuIdle hooks)^[n] c).bus.readByte a = c.bus.readByte a :=
  congrFun (Function.iterate_invariant (f := cpuIdle hooks) (g := fun d => d.bus.readByte a)
    (funext fun d => Controller.service_readByte hk ha d.interrupts d.bus) n) c

/-! ### Executing `HALT` and `STOP` -/

/-- The step of an awake processor whose instruction `i` neither jumps nor
touches the console, only reporting its effect `e`: PC moves past the
instruction, the count goes up, the engine applies `e`, and the step costs
`i`'s cycles and the extra `e` reports. -/
theorem step_of_pure_run (hooks : Hooks σ) (hawake : (c.cpu.wake c.bus).2 = false) {i : Instr}
    (hd : decode (c.bus.readByte c.regs.pc) = some i) (hj : i.jumps = false) {e : Effect}
    (hrun : ∀ d : Console σ, (i.run : Exec σ Effect).run d = .ok e d) :
    (step hooks c).result = .ok (i.cycles + e.extraCycles) ∧
      (step hooks c).console.regs.pc = c.regs.pc + 1 + UInt16.ofNat i.operandLen ∧
      (step hooks c).console.cpu =
        ({ c.cpu with halted := false, stopped := false, executed := c.cpu.executed + 1 }.complete
          c.interrupts.ime e).1 := by
  have hx := (execute_eq_ok_iff { c with cpu := { c.cpu with halted := false, stopped := false } }
    (i.cycles + e.extraCycles) _).2 ⟨i, e, _, hd, hrun _, rfl, rfl⟩
  refine ⟨(step_eq_ok_iff hooks hawake _).2 ⟨_, hx⟩, ?_, ?_⟩
  · rw [step_console_of_execute hawake hx]
    simp [hj, Registers.advancePc]
  · rw [step_console_of_execute hawake hx]

/-- `HALT` at PC halts the processor with PC one past it, in 4 cycles. -/
theorem step_halt (hawake : (c.cpu.wake c.bus).2 = false) (hop : c.bus.readByte c.regs.pc = 0x76) :
    (step hooks c).result = .ok 4 ∧ (step hooks c).console.regs.pc = c.regs.pc + 1 ∧
      (step hooks c).console.cpu.halted = true ∧ (step hooks c).console.cpu.stopped = false := by
  have hd : decode (c.bus.readByte c.regs.pc) = some .halt := by rw [hop]; rfl
  obtain ⟨hres, hpc, hcpu⟩ := step_of_pure_run hooks hawake hd rfl (e := .halt) fun _ => rfl
  refine ⟨hres, ?_, ?_, ?_⟩
  · rw [hpc]
    simp [Instr.operandLen]
  · rw [hcpu]
    rfl
  · rw [hcpu]
    rfl

/-- `STOP` at PC stops the processor with PC two past it, its padding byte
skipped, in 4 cycles. -/
theorem step_stop (hawake : (c.cpu.wake c.bus).2 = false) (hop : c.bus.readByte c.regs.pc = 0x10) :
    (step hooks c).result = .ok 4 ∧ (step hooks c).console.regs.pc = c.regs.pc + 2 ∧
      (step hooks c).console.cpu.stopped = true ∧ (step hooks c).console.cpu.halted = false := by
  have hd : decode (c.bus.readByte c.regs.pc) = some .stop := by rw [hop]; rfl
  obtain ⟨hres, hpc, hcpu⟩ := step_of_pure_run hooks hawake hd rfl (e := .stop) fun _ => rfl
  refine ⟨hres, ?_, ?_, ?_⟩
  · rw [hpc, UInt16.add_assoc]
    rfl
  · rw [hcpu]
    rfl
  · rw [hcpu]
    rfl

/-- The processor's step leaves the registers and the control state as the
console's does: the PPU and the cycle count come after it. -/
theorem cpuStep_regs_cpu (hooks : Hooks σ) (c : Console σ) :
    (cpuStep hooks c).console.regs = (step hooks c).console.regs ∧
      (cpuStep hooks c).console.cpu = (step hooks c).console.cpu := by
  unfold cpuStep step stepWith
  rcases c.cpu.wake c.bus with ⟨cpu, asleep⟩
  dsimp only
  simp only [advance, EStateM.run_bind]
  cases (cpuAdvance hooks asleep).run { c with cpu } <;> exact ⟨rfl, rfl⟩

/-- `HALT` and `STOP` do the same in a step of the processor alone. -/
theorem cpuStep_halt_stop (hawake : (c.cpu.wake c.bus).2 = false) :
    (c.bus.readByte c.regs.pc = 0x76 →
      (cpuStep hooks c).result = .ok 4 ∧ (cpuStep hooks c).console.regs.pc = c.regs.pc + 1 ∧
        (cpuStep hooks c).console.cpu.halted = true ∧ (cpuStep hooks c).console.cpu.stopped = false) ∧
    (c.bus.readByte c.regs.pc = 0x10 →
      (cpuStep hooks c).result = .ok 4 ∧ (cpuStep hooks c).console.regs.pc = c.regs.pc + 2 ∧
        (cpuStep hooks c).console.cpu.stopped = true ∧ (cpuStep hooks c).console.cpu.halted = false) := by
  obtain ⟨hregs, hcpu⟩ := cpuStep_regs_cpu hooks c
  rw [cpuStep_result, hregs, hcpu]
  exact ⟨step_halt hawake, step_stop hawake⟩

/-! ### Never halted and stopped at once -/

/-- Every step keeps at most one of the two flags set. -/
theorem exclusive_step (h : c.cpu.Exclusive) : (step hooks c).console.cpu.Exclusive := by
  cases hw : (c.cpu.wake c.bus).2 with
  | true =>
    -- asleep: the step keeps the control state waking left
    rw [(step_console_of_asleep hw).2]
    exact Cpu.exclusive_wake h c.bus
  | false =>
    cases hr : (step hooks c).result with
    | ok n =>
      -- the instruction ran on the woken processor, and its bookkeeping sets one flag at most
      obtain ⟨i, hi⟩ := executed?_of_ok hw hr
      obtain ⟨e, s, hrun, -, -, hcpu⟩ := stackStep_step.of_executed hi
      have hframe := (Instr.run_control_of_ok i hrun).1
      rw [hcpu]
      exact Cpu.exclusive_complete (by simp [hframe]) (by simp [hframe]) _ e
    | error f =>
      -- a failed step stops with the woken processor
      have key := (step_eq_error_iff hooks hw f _).1 ⟨hr, rfl⟩
      rcases (execute_eq_error_iff _ f _).1 key with ⟨-, -, hs⟩ | ⟨i, -, -, -, hs⟩ <;> rw [hs] <;>
        exact .inl rfl

theorem exclusive_runFrom :
    ∀ (n : Nat) (c : Console σ) (trace : Array String) (acc : Nat), c.cpu.Exclusive →
      (runFrom hooks n c trace acc).console.cpu.Exclusive
  | 0, _, _, _, h => h
  | n + 1, c, trace, acc, h => by
    dsimp only [runFrom]
    split
    · exact exclusive_runFrom n _ _ _ (exclusive_step h)
    · exact exclusive_step h

/-- So does every step of the processor alone. -/
theorem exclusive_cpuStep (h : c.cpu.Exclusive) : (cpuStep hooks c).console.cpu.Exclusive := by
  rw [(cpuStep_regs_cpu hooks c).2]
  exact exclusive_step h

/-- A reset processor is neither halted nor stopped. -/
theorem exclusive_reset (c : Console σ) : c.reset.cpu.Exclusive := .inl rfl

/-- A console a session reaches is never halted and stopped at once. -/
theorem Reachable.exclusive {c : Console σ} (h : Reachable hooks c) : c.cpu.Exclusive := by
  induction h with
  | new cfg st => exact .inl rfl
  | step _ ih => exact exclusive_step ih
  | runFor n _ ih => exact exclusive_runFrom n _ _ _ ih
  | reset _ ih => exact exclusive_reset _
  | loadRom rom _ hl ih =>
    obtain ⟨d, rfl⟩ := loadRom_eq_ok_reset hl
    exact exclusive_reset d
  | loadCartridge rom kind _ hl ih =>
    obtain ⟨d, rfl⟩ := loadCartridge_eq_ok_reset hl
    exact exclusive_reset d

end Console

/-- **Halt and stop.** `HALT` at `p` halts the processor with PC = `p + 1`,
and `STOP` at `p` stops it with PC = `p + 2`. A halted processor sleeps for as
long as no interrupt is both requested and allowed, a stopped one for as long
as the joypad interrupt is not requested, whatever IE and the other requests
say: each such step costs four cycles, logs nothing and only runs the
controller and the PPU, so over any number of them the registers and the
control state, the executed count and the EI delay among it, stay as they
were. The first step that begins with the wake-up condition holding, whatever
the master enable, is the step of the woken processor, which is awake and
executes the instruction at PC. No console a session reaches is halted and
stopped at once. All of it holds as well of the processor's step alone, where
a sleeping step is the controller's pass and nothing else, step after step,
and no step sets both flags. -/
theorem Console.halt_stop_sleep_and_wake {σ : Type} (hooks : Hooks σ) :
    (∀ c : Console σ, (c.cpu.wake c.bus).2 = false → c.bus.readByte c.regs.pc = 0x76 →
      (step hooks c).result = .ok 4 ∧ (step hooks c).console.regs.pc = c.regs.pc + 1 ∧
        (step hooks c).console.cpu.halted = true ∧ (step hooks c).console.cpu.stopped = false) ∧
    (∀ c : Console σ, (c.cpu.wake c.bus).2 = false → c.bus.readByte c.regs.pc = 0x10 →
      (step hooks c).result = .ok 4 ∧ (step hooks c).console.regs.pc = c.regs.pc + 2 ∧
        (step hooks c).console.cpu.stopped = true ∧ (step hooks c).console.cpu.halted = false) ∧
    (∀ c : Console σ, c.cpu.halted = true → c.cpu.stopped = false → activeSet c.bus = 0 →
      step hooks c = ⟨c.idle hooks, #[], .ok 4⟩) ∧
    (∀ c : Console σ, c.cpu.stopped = true → pendingSet c.bus &&& Source.joypad.mask = 0 →
      step hooks c = ⟨c.idle hooks, #[], .ok 4⟩) ∧
    (∀ c : Console σ, (c.idle hooks).regs = c.regs ∧ (c.idle hooks).cpu = c.cpu) ∧
    (∀ (c : Console σ) (n : Nat), c.cpu.halted = true → c.cpu.stopped = false →
      (∀ k < n, activeSet ((idle hooks)^[k] c).bus = 0) →
      runFor hooks n c = ⟨(idle hooks)^[n] c, #[], .ok (4 * n)⟩ ∧
        ((idle hooks)^[n] c).regs = c.regs ∧ ((idle hooks)^[n] c).cpu = c.cpu) ∧
    (∀ (c : Console σ) (n : Nat), c.cpu.stopped = true →
      (∀ k < n, pendingSet ((idle hooks)^[k] c).bus &&& Source.joypad.mask = 0) →
      runFor hooks n c = ⟨(idle hooks)^[n] c, #[], .ok (4 * n)⟩ ∧
        ((idle hooks)^[n] c).regs = c.regs ∧ ((idle hooks)^[n] c).cpu = c.cpu) ∧
    (∀ c : Console σ, c.cpu.halted = true → c.cpu.stopped = false → activeSet c.bus ≠ 0 →
      step hooks c = step hooks { c with cpu := { c.cpu with halted := false } } ∧
        ({ c.cpu with halted := false }.wake c.bus).2 = false) ∧
    (∀ c : Console σ, c.cpu.stopped = true → c.cpu.halted = false →
      pendingSet c.bus &&& Source.joypad.mask ≠ 0 →
      step hooks c = step hooks { c with cpu := { c.cpu with stopped := false } } ∧
        ({ c.cpu with stopped := false }.wake c.bus).2 = false) ∧
    (∀ c : Console σ, Reachable hooks c → c.cpu.halted = false ∨ c.cpu.stopped = false) ∧
    (∀ c : Console σ, (c.cpu.wake c.bus).2 = false → c.bus.readByte c.regs.pc = 0x76 →
      (cpuStep hooks c).result = .ok 4 ∧ (cpuStep hooks c).console.regs.pc = c.regs.pc + 1 ∧
        (cpuStep hooks c).console.cpu.halted = true ∧ (cpuStep hooks c).console.cpu.stopped = false) ∧
    (∀ c : Console σ, (c.cpu.wake c.bus).2 = false → c.bus.readByte c.regs.pc = 0x10 →
      (cpuStep hooks c).result = .ok 4 ∧ (cpuStep hooks c).console.regs.pc = c.regs.pc + 2 ∧
        (cpuStep hooks c).console.cpu.stopped = true ∧ (cpuStep hooks c).console.cpu.halted = false) ∧
    (∀ c : Console σ, (c.cpuIdle hooks).regs = c.regs ∧ (c.cpuIdle hooks).cpu = c.cpu ∧
      (c.cpuIdle hooks).ppu = c.ppu ∧ (c.cpuIdle hooks).cycles = c.cycles) ∧
    (∀ (c : Console σ) (n : Nat), c.cpu.halted = true → c.cpu.stopped = false →
      (∀ k < n, activeSet ((cpuIdle hooks)^[k] c).bus = 0) →
      (∀ k < n, cpuStep hooks ((cpuIdle hooks)^[k] c) = ⟨(cpuIdle hooks)^[k + 1] c, #[], .ok 4⟩) ∧
        (fun d => (cpuStep hooks d).console)^[n] c = (cpuIdle hooks)^[n] c ∧
        ((cpuIdle hooks)^[n] c).regs = c.regs ∧ ((cpuIdle hooks)^[n] c).cpu = c.cpu) ∧
    (∀ (c : Console σ) (n : Nat), c.cpu.stopped = true →
      (∀ k < n, pendingSet ((cpuIdle hooks)^[k] c).bus &&& Source.joypad.mask = 0) →
      (∀ k < n, cpuStep hooks ((cpuIdle hooks)^[k] c) = ⟨(cpuIdle hooks)^[k + 1] c, #[], .ok 4⟩) ∧
        (fun d => (cpuStep hooks d).console)^[n] c = (cpuIdle hooks)^[n] c ∧
        ((cpuIdle hooks)^[n] c).regs = c.regs ∧ ((cpuIdle hooks)^[n] c).cpu = c.cpu) ∧
    (∀ c : Console σ, c.cpu.halted = true → c.cpu.stopped = false → activeSet c.bus ≠ 0 →
      cpuStep hooks c = cpuStep hooks { c with cpu := { c.cpu with halted := false } }) ∧
    (∀ c : Console σ, c.cpu.stopped = true → c.cpu.halted = false →
      pendingSet c.bus &&& Source.joypad.mask ≠ 0 →
      cpuStep hooks c = cpuStep hooks { c with cpu := { c.cpu with stopped := false } }) ∧
    (∀ c : Console σ, (c.cpu.halted = false ∨ c.cpu.stopped = false) →
      (cpuStep hooks c).console.cpu.halted = false ∨ (cpuStep hooks c).console.cpu.stopped = false) := by
  refine ⟨fun c hw hop => step_halt hw hop, fun c hw hop => step_stop hw hop,
    fun c hh hs ha => ?_, fun c hs hj => step_of_sleeps (Cpu.wake_of_stopped hs hj),
    fun c => ⟨rfl, rfl⟩, fun c n hh hs hq => ?_, fun c n hs hq => ?_,
    fun c hh hs ha => ⟨stepWith_wakes_halted _ hh hs ha, ?_⟩,
    fun c hs hh hj => ⟨stepWith_wakes_stopped _ hs hh hj, ?_⟩, fun c h => h.exclusive,
    fun c hw => (cpuStep_halt_stop hw).1, fun c hw => (cpuStep_halt_stop hw).2,
    fun c => ⟨rfl, rfl, rfl, rfl⟩, fun c n hh hs hq => ?_, fun c n hs hq => ?_,
    fun c hh hs ha => stepWith_wakes_halted _ hh hs ha, fun c hs hh hj => stepWith_wakes_stopped _ hs hh hj,
    fun c h => exclusive_cpuStep h⟩
  · apply step_of_sleeps
    rw [Cpu.wake_halted _ hh hs, if_pos ha]
  · exact ⟨runFor_halted hh hs n hq, regs_iterate_idle n, cpu_iterate_idle n⟩
  · exact ⟨runFor_stopped hs n hq, regs_iterate_idle n, cpu_iterate_idle n⟩
  · simp [Cpu.wake, hs]
  · simp [Cpu.wake, hh]
  · -- halted alone: every step sleeps on while nothing is requested and allowed
    have hsleep : ∀ k < n, c.cpu.wake ((cpuIdle hooks)^[k] c).bus = (c.cpu, true) := fun k hk => by
      rw [Cpu.wake_halted _ hh hs, if_pos (hq k hk)]
    obtain ⟨hsteps, hrun⟩ := cpuSteps_of_sleeps n c hsleep
    exact ⟨hsteps, hrun, regs_iterate_cpuIdle n, cpu_iterate_cpuIdle n⟩
  · -- stopped alone: every step sleeps on while the joypad is not requested
    obtain ⟨hsteps, hrun⟩ := cpuSteps_of_sleeps n c fun k hk => Cpu.wake_of_stopped hs (hq k hk)
    exact ⟨hsteps, hrun, regs_iterate_cpuIdle n, cpu_iterate_cpuIdle n⟩

namespace Console

/-- A console at power-on with `HALT` at 0xC000 and PC on it. -/
def haltAtC000 : Console Unit :=
  { Console.new Config.standard () with
    regs := { Registers.powerOn with pc := 0xC000 }
    bus := (Bus.new .dmg).writeByte 0xC000 0x76 }

/-- A console at power-on with its processor halted; IE is clear, so no
interrupt is allowed. -/
def haltedAtPowerOn : Console Unit :=
  { Console.new Config.standard () with cpu := { (Console.new Config.standard ()).cpu with halted := true } }

/-- `HALT` at 0xC000 halts the processor alone with PC on 0xC001, and a
halted processor at power-on, IE clear, idles: three steps of the processor
alone are three passes of the controller, the registers and the control
state kept. -/
theorem halted_processor_idles :
    ((cpuStep Hooks.none haltAtC000).result = .ok 4 ∧ (cpuStep Hooks.none haltAtC000).console.regs.pc = 0xC001 ∧
      (cpuStep Hooks.none haltAtC000).console.cpu.halted = true ∧
      (cpuStep Hooks.none haltAtC000).console.cpu.stopped = false) ∧
    (∀ k < 3, cpuStep Hooks.none ((cpuIdle Hooks.none)^[k] haltedAtPowerOn) =
      ⟨(cpuIdle Hooks.none)^[k + 1] haltedAtPowerOn, #[], .ok 4⟩) ∧
    (fun d => (cpuStep Hooks.none d).console)^[3] haltedAtPowerOn = (cpuIdle Hooks.none)^[3] haltedAtPowerOn ∧
    ((cpuIdle Hooks.none)^[3] haltedAtPowerOn).regs = haltedAtPowerOn.regs ∧
    ((cpuIdle Hooks.none)^[3] haltedAtPowerOn).cpu = haltedAtPowerOn.cpu := by
  obtain ⟨-, -, -, -, -, -, -, -, -, -, hhalt, -, -, hidle, -⟩ := halt_stop_sleep_and_wake Hooks.none
  have hop : haltAtC000.bus.readByte haltAtC000.regs.pc = 0x76 := by
    rw [show haltAtC000.bus = (Bus.new .dmg).writeByte 0xC000 0x76 from rfl,
      show haltAtC000.regs.pc = 0xC000 from rfl]
    exact Bus.readByte_writeByte_self _ _ (by decide)
  obtain ⟨hres, hpc, hh, hs⟩ := hhalt haltAtC000 (Cpu.wake_of_flags rfl rfl) hop
  refine ⟨⟨hres, hpc.trans rfl, hh, hs⟩, hidle haltedAtPowerOn 3 rfl rfl fun k _ => ?_⟩
  -- IE stays clear through the idle steps: the controller writes only IF
  have hie : ((cpuIdle Hooks.none)^[k] haltedAtPowerOn).bus.readByte ioIe = 0 := by
    rw [readByte_iterate_cpuIdle (fun _ _ _ => rfl) (by decide)]
    show (Bus.new .dmg).readByte ioIe = 0
    rw [Bus.readByte_new]
    decide
  simp [activeSet, enabledSet, hie]

end Console
end Dmg
