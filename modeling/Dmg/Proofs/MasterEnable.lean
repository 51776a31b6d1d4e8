import Mathlib.Logic.Function.Iterate
import Dmg.Proofs.Flow
/-!
# The master enable over whole runs

The processor's manual describes the master enable with one bit beside it:
whether an `EI` is armed (`ImeSpec`). `DI` turns the enable off and disarms;
any other instruction, once it completes, turns the enable on if an `EI` was
armed before it or if it is `RETI`, and leaves an `EI` armed exactly when it
is `EI` (`ImeSpec.exec`). A step that idles or fails changes nothing. So the
interrupt check that ends the step executing `EI` never sees an enable that
`EI` caused, `EI` followed by `DI` never enables, and `RETI` enables at once.

The engine keeps the delay in three states (`EnableDelay`), a second `EI`
while one is armed queueing another arming, and applies it after the
instruction's own effect (`Cpu.complete`). It refines the reference: the
relation `ImeSpec.Tracks` ties the engine's delay and master enable to the
reference state, holds of a fresh or reset console, and every step keeps it
(`Console.tracks_step`). Hence after any number of steps, failed and idle ones
included, the master enable is the reference's, run over what those steps
completed (`Console.master_enable_follows_spec`). The controller never changes
the master enable (`Controller.ime_service`), so that is also the value its
pass at the end of the step ran with.

Key definitions: `ImeSpec`, `ImeSpec.exec`, `ImeSpec.after`,
`Console.executed?`, `Console.executedRun`, `ImeSpec.Tracks`.
Key theorems: `Instr.effect_touches_enable`, `Console.step_control`,
`ImeSpec.tracks_complete`, `Console.tracks_step`, `Console.tracks_run`,
`Console.master_enable_follows_spec`.
-/

namespace Dmg

/-- The master enable as the manual describes it: whether it is on, and
whether an `EI` is armed to turn it on once the next instruction completes. -/
structure ImeSpec where
  ime : Bool
  armed : Bool
deriving DecidableEq, Repr

namespace ImeSpec

/-- At power-on and after a reset: on, with nothing armed. -/
def start : ImeSpec := ⟨true, false⟩

/-- After the instruction `x` completes: `DI` turns the enable off and
disarms; any other instruction turns it on if an `EI` was armed or it is
`RETI`, and leaves an `EI` armed exactly when it is `EI`. -/
def exec (m : ImeSpec) (x : Instr) : ImeSpec :=
  if x = .di then ⟨false, false⟩ else ⟨m.ime || m.armed || x == .reti, x == .ei⟩

/-- After a step that completed `x` (`some x`), or that idled or failed
(`none`). -/
def after (m : ImeSpec) : Option Instr → ImeSpec
  | none => m
  | some x => m.exec x

/-- The engine's EI delay `d` and master enable `ime` refine the reference
state `m`: the enables agree; with nothing scheduled nothing is armed; an
armed delay comes from an armed `EI` or fires on an enable that is already
on; and a queued one from a second `EI` after the first had turned the
enable on. -/
structure Tracks (m : ImeSpec) (d : EnableDelay) (ime : Bool) : Prop where
  ime_eq : ime = m.ime
  of_idle : d = .idle → m.armed = false
  of_armed : d = .armed → m.ime = true ∨ m.armed = true
  of_rearm : d = .rearm → m.armed = true ∧ m.ime = true

theorem tracks_start : start.Tracks .idle true :=
  ⟨rfl, fun _ => rfl, nofun, nofun⟩

end ImeSpec

/-! ### The engine's bookkeeping -/

theorem Cpu.complete_delay (cpu : Cpu) (ime : Bool) (e : Effect) :
    (cpu.complete ime e).1.delay = if e = .disableInterrupts then .idle else cpu.delay.next e := by
  cases e <;> rfl

theorem Cpu.complete_ime (cpu : Cpu) (ime : Bool) (e : Effect) :
    (cpu.complete ime e).2.1 =
      if e = .disableInterrupts then false else ime || e == .enableNow || cpu.delay == .armed := by
  cases e <;> rfl

/-- Any effect but `EI`'s fires an armed delay and arms a queued one. -/
theorem EnableDelay.next_of_ne {e : Effect} (he : e ≠ .enableInterrupts) (d : EnableDelay) :
    d.next e = if d = .rearm then .armed else .idle := by
  cases d <;> cases e <;> simp_all [EnableDelay.next]

/-- Waking up changes only the halt and stop flags. -/
theorem Cpu.delay_wake (cpu : Cpu) (bus : Bus) : (cpu.wake bus).1.delay = cpu.delay := by
  unfold Cpu.wake
  dsimp only
  split_ifs <;> rfl

/-- The effects that touch the master enable are exactly those of `DI`, `EI`
and `RETI`. -/
theorem Instr.effect_touches_enable (i : Instr) (f : Flags) (sub : UInt8) :
    (i.effect f sub = .disableInterrupts ↔ i = .di) ∧ (i.effect f sub = .enableInterrupts ↔ i = .ei) ∧
      (i.effect f sub = .enableNow ↔ i = .reti) := by
  cases i <;> simp [effect, Exec.taken] <;> split_ifs <;> simp

/-- The engine's bookkeeping after an instruction `x` with effect `e` keeps the
refinement, the reference taking `x`: the case analysis runs over the three
kinds of effect that touch the enable and the three states of the delay. -/
theorem ImeSpec.tracks_complete {m : ImeSpec} {d : EnableDelay} {ime : Bool} (h : m.Tracks d ime)
    (x : Instr) {e : Effect} (hdi : e = .disableInterrupts ↔ x = .di)
    (hei : e = .enableInterrupts ↔ x = .ei) (hreti : e = .enableNow ↔ x = .reti) :
    (m.exec x).Tracks (if e = .disableInterrupts then .idle else d.next e)
      (if e = .disableInterrupts then false else ime || e == .enableNow || d == .armed) := by
  obtain ⟨rfl, hidle, harmed, hrearm⟩ := h
  by_cases hd : e = .disableInterrupts
  · -- DI: off, nothing scheduled, nothing armed
    simp only [hd, if_true, exec, hdi.1 hd]
    exact ⟨rfl, fun _ => rfl, nofun, nofun⟩
  · have hx : x ≠ .di := fun h => hd (hdi.2 h)
    have hr : (e == .enableNow) = (x == .reti) := by
      rw [Bool.eq_iff_iff]
      simp [hreti]
    simp only [hd, if_false, exec, hx, hr]
    by_cases hxe : x = .ei
    · -- EI: the reference arms, and the delay arms or queues behind an armed one
      rw [hei.2 hxe, hxe]
      cases d with
      | idle => exact ⟨by simp [hidle rfl], nofun, fun _ => .inr rfl, nofun⟩
      | armed =>
        have hon : (m.ime || m.armed) = true := by simpa using harmed rfl
        exact ⟨by simpa using hon, nofun, nofun, fun _ => ⟨rfl, by simpa using hon⟩⟩
      | rearm => exact ⟨by simp [(hrearm rfl).2], nofun, fun _ => .inr rfl, nofun⟩
    · -- any other instruction: nothing stays armed, an armed delay fires and a
      -- queued one arms
      have hne : (x == .ei) = false := by simpa using hxe
      rw [hne, EnableDelay.next_of_ne fun he => hxe (hei.1 he)]
      cases d with
      | idle => exact ⟨by simp [hidle rfl], fun _ => rfl, nofun, nofun⟩
      | armed =>
        have hon : (m.ime || m.armed) = true := by simpa using harmed rfl
        exact ⟨by simp [hon], fun _ => rfl, nofun, nofun⟩
      | rearm => exact ⟨by simp [(hrearm rfl).2], nofun, fun _ => .inl (by simp [(hrearm rfl).2]), nofun⟩

/-! ### Steps -/

/-- An instruction that finishes leaves the control state and the controller
as it found them. -/
theorem Instr.run_control_of_ok {σ : Type} (i : Instr) {c s : Console σ} {e : Effect}
    (h : (i.run : Exec σ Effect).run c = .ok e s) : s.cpu = c.cpu ∧ s.interrupts = c.interrupts := by
  have hk := Instr.run_keeps_control i c
  simp only [Exec.final, h, Prod.mk.injEq] at hk
  exact hk

namespace Console

variable {σ : Type}

/-- The instruction a step completes: the one at PC, when the processor is
awake and the step succeeds; `none` when it idles or fails. -/
def executed? (hooks : Hooks σ) (c : Console σ) : Option Instr :=
  match (c.cpu.wake c.bus).2, (step hooks c).result with
  | false, .ok _ => decode (c.bus.readByte c.regs.pc)
  | _, _ => none

/-- What each of `n` steps from `c` completed, in order. -/
def executedRun (hooks : Hooks σ) : Nat → Console σ → List (Option Instr)
  | 0, _ => []
  | n + 1, c => c.executed? hooks :: executedRun hooks n (step hooks c).console

/-- What a step does to the EI delay and the master enable: nothing when it
idles or fails, and otherwise the engine's bookkeeping for the effect of the
instruction it completed. -/
theorem step_control (hooks : Hooks σ) (c : Console σ) :
    (c.executed? hooks = none ∧ (step hooks c).console.cpu.delay = c.cpu.delay ∧
      (step hooks c).console.interrupts.ime = c.interrupts.ime) ∨
    ∃ i, c.executed? hooks = some i ∧
      (step hooks c).console.cpu.delay =
        (c.cpu.complete c.interrupts.ime (i.effect c.regs.flags (c.bus.readByte (c.regs.pc + 1)))).1.delay ∧
      (step hooks c).console.interrupts.ime =
        (c.cpu.complete c.interrupts.ime (i.effect c.regs.flags (c.bus.readByte (c.regs.pc + 1)))).2.1 := by
  cases hw : (c.cpu.wake c.bus).2 with
  | true =>
    -- asleep: the step idles, and the controller keeps the master enable
    refine .inl ⟨by simp [executed?, hw], ?_⟩
    unfold step stepWith
    simp [hw, advance, cpuAdvance, Cpu.delay_wake]
  | false =>
    cases hr : (step hooks c).result with
    | error f =>
      -- a failed step stops where executing failed, the control state untouched
      refine .inl ⟨by simp [executed?, hw, hr], ?_⟩
      have key := (step_eq_error_iff hooks hw f _).1 ⟨hr, rfl⟩
      rcases (execute_eq_error_iff _ f _).1 key with ⟨-, -, hs⟩ | ⟨i, -, -, -, hs⟩ <;> rw [hs] <;>
        exact ⟨rfl, rfl⟩
    | ok n =>
      obtain ⟨s, hx⟩ := (step_eq_ok_iff hooks hw n).1 hr
      obtain ⟨-, hcpu, hime⟩ := step_of_execute_eq_ok hooks hw hx
      obtain ⟨i, e, s', hd, hrun, rfl, -⟩ := (execute_eq_ok_iff _ n s).1 hx
      -- the instruction left the control state and the controller as the woken console had them
      have hframe := Instr.run_control_of_ok i hrun
      have he := Instr.run_effect i _ hrun
      simp only [Registers.flags_with_pc] at he
      refine .inr ⟨i, by simp [executed?, hw, hr, hd], ?_, ?_⟩
      · rw [hcpu, Cpu.complete_delay, Cpu.complete_delay, ← he, hframe.1]
      · rw [hime]
        simp only [Controller.setIme, Cpu.complete_ime, ← he, hframe.1, hframe.2]

/-- Every step keeps the refinement, the reference taking what the step
completed. -/
theorem tracks_step (hooks : Hooks σ) {c : Console σ} {m : ImeSpec}
    (h : m.Tracks c.cpu.delay c.interrupts.ime) :
    (m.after (c.executed? hooks)).Tracks (step hooks c).console.cpu.delay
      (step hooks c).console.interrupts.ime := by
  rcases step_control hooks c with ⟨hnone, hd, hi⟩ | ⟨i, hsome, hd, hi⟩
  · rw [hnone, hd, hi]
    exact h
  · rw [hsome, hd, hi, Cpu.complete_delay, Cpu.complete_ime]
    obtain ⟨hdi, hei, hreti⟩ := Instr.effect_touches_enable i c.regs.flags (c.bus.readByte (c.regs.pc + 1))
    exact ImeSpec.tracks_complete h i hdi hei hreti

/-- A run of `n` steps keeps the refinement, the reference taking what each
step completed in turn. -/
theorem tracks_run (hooks : Hooks σ) (n : Nat) :
    ∀ (c : Console σ) (m : ImeSpec), m.Tracks c.cpu.delay c.interrupts.ime →
      ((executedRun hooks n c).foldl ImeSpec.after m).Tracks
        ((fun c => (step hooks c).console)^[n] c).cpu.delay
        ((fun c => (step hooks c).console)^[n] c).interrupts.ime := by
  induction n with
  | zero => exact fun _ _ h => h
  | succ n ih =>
    intro c m h
    rw [Function.iterate_succ_apply]
    exact ih _ _ (tracks_step hooks h)

/-- From a fresh or a reset console, after any number of steps, idle and
failed ones included, the master enable is the reference's, run over what
those steps completed. -/
theorem master_enable_follows_spec (hooks : Hooks σ) :
    (∀ (cfg : Config) (st : σ) (n : Nat),
      ((fun c => (step hooks c).console)^[n] (Console.new cfg st)).interrupts.ime =
        ((executedRun hooks n (Console.new cfg st)).foldl ImeSpec.after ImeSpec.start).ime) ∧
    ∀ (c : Console σ) (n : Nat),
      ((fun c => (step hooks c).console)^[n] c.reset).interrupts.ime =
        ((executedRun hooks n c.reset).foldl ImeSpec.after ImeSpec.start).ime :=
  ⟨fun _ _ n => (tracks_run hooks n _ _ ImeSpec.tracks_start).ime_eq,
    fun _ n => (tracks_run hooks n _ _ ImeSpec.tracks_start).ime_eq⟩

end Console

end Dmg
