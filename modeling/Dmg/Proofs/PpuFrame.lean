import Mathlib.Logic.Function.Iterate
import Dmg.Ppu
import Dmg.Proofs.Memory
import Dmg.Proofs.Faults
/-!
# The PPU's frame

Started from `Ppu.new` or `Ppu.reset`, the mode machine walks one frame after
another: `Timing.hblankSteps` steps of horizontal blank, where the line counter
counts up from 0 until it reaches a line of vertical blank (`Timing.InVblank`),
the rest of the vertical blank up to the last line, then OAM read and the
OAM/VRAM transfer for `max steps 1` steps each, after which it is back at
line 0 in horizontal blank with its clock at zero. `Timing.stateAt` is that
closed form and `Timing.period` the frame's length. With no line of vertical
blank (`lastScanline < vblankStart`) the machine stays in horizontal blank for
ever, its line counting modulo 256.

The bus follows: stepped on its own, the PPU keeps LY equal to its line and the
low two bits of STAT equal to its mode, and touches no other bit or byte
(`Ppu.Mirrors`).

Key definitions: `Ppu.advance`, `Ppu.Timing.hblankSteps`, `Ppu.Timing.period`,
`Ppu.Timing.frameAt`, `Ppu.Timing.stateAt`, `Ppu.Mirrors`.

Key theorems: `Ppu.run_fst`, `Ppu.Timing.hblankSteps_spec`,
`Ppu.Timing.advance_frameAt`, `Ppu.advance_iterate_new`, `Ppu.Mirrors.step`,
`Ppu.Mirrors.runFrom`.
-/

namespace Dmg

namespace Ppu

/-! ### The mode machine without the bus -/

/-- One step of the mode machine as the PPU sees it: `step` without its writes
to the bus, on which it never depends. -/
def advance (p : Ppu) : Ppu :=
  match p.mode with
  | .hblank =>
    if p.timing.vblankStart ≤ p.scanline + 1 ∧ p.scanline + 1 ≤ p.timing.lastScanline then
      { p with scanline := p.scanline + 1, mode := .vblank }
    else { p with scanline := p.scanline + 1 }
  | .vblank =>
    if p.scanline ≥ p.timing.lastScanline then { p with scanline := 0, mode := .oamRead }
    else { p with scanline := p.scanline + 1 }
  | .oamRead =>
    if p.clock + 1 ≥ p.timing.oamSteps.toNat then { p with clock := 0, mode := .transfer }
    else { p with clock := p.clock + 1 }
  | .transfer =>
    if p.clock + 1 ≥ p.timing.transferSteps.toNat then { p with clock := 0, mode := .hblank }
    else { p with clock := p.clock + 1 }

/-- The PPU after a step is `advance` of it, whatever the bus. -/
theorem step_fst (p : Ppu) (bus : Bus) : (p.step bus).1 = p.advance := by
  -- `step` tests the line that `setScanline` has just written, a test `split_ifs`
  -- does not recognise as `advance`'s, so the test is split and read off on both sides
  rcases p with ⟨t, _ | _ | _ | _, s, c⟩ <;> simp only [step, advance, setScanline, enter, tick] <;>
    split_ifs with h <;> simp only [h, and_self, if_true, if_false]

theorem runFrom_fst (p : Ppu) (bus : Bus) (seen : Array (Mode × UInt8)) (n : Nat) :
    (p.runFrom bus seen n).1 = advance^[n] p := by
  induction n generalizing p bus seen with
  | zero => rfl
  | succ n ih => rw [runFrom_succ, ih, step_fst, Function.iterate_succ_apply]

/-- The PPU after a run is the mode machine iterated. -/
theorem run_fst (p : Ppu) (bus : Bus) (n : Nat) : (p.run bus n).1 = advance^[n] p :=
  runFrom_fst p bus #[] n

theorem reset_eq_new (p : Ppu) : p.reset = new p.timing := rfl

/-- The line after line `n`, counted modulo 256, is line `n + 1`. -/
theorem ofNat_add_one (n : Nat) : UInt8.ofNat n + 1 = UInt8.ofNat (n + 1) :=
  (UInt8.ofNat_add n 1).symm

/-! ### The frame in closed form -/

namespace Timing

variable (t : Timing)

/-- Whether line `k`, counted modulo 256 as LY counts, is a line of vertical
blank. -/
def InVblank (k : Nat) : Prop :=
  t.vblankStart.toNat ≤ k % 256 ∧ k % 256 ≤ t.lastScanline.toNat

instance (k : Nat) : Decidable (t.InVblank k) := inferInstanceAs (Decidable (_ ∧ _))

/-- The steps a frame spends in horizontal blank: the least `k ≥ 1` whose line
is in vertical blank. Line 0 itself is stepped over, so a vertical blank made of
line 0 alone is reached only after 256 steps. -/
def hblankSteps : Nat :=
  if t.vblankStart = 0 then (if t.lastScanline = 0 then 256 else 1) else t.vblankStart.toNat

/-- The steps in vertical blank: one for each line from where horizontal blank
stopped up to the last line. -/
def vblankSteps : Nat := t.lastScanline.toNat - t.hblankSteps % 256 + 1

/-- The steps in OAM read: at least one, however short the timing. -/
def oamLength : Nat := max t.oamSteps.toNat 1

/-- The steps in the OAM/VRAM transfer: at least one. -/
def transferLength : Nat := max t.transferSteps.toNat 1

/-- The length of a frame. -/
def period : Nat := t.hblankSteps + t.vblankSteps + t.oamLength + t.transferLength

/-- The PPU `j` steps into a frame, for `j` below the period. Through both
blanks the line is `j` modulo 256; OAM read and the transfer are on line 0, their
clock counting the steps spent in them. -/
def frameAt (j : Nat) : Ppu :=
  if j < t.hblankSteps then ⟨t, .hblank, UInt8.ofNat j, 0⟩
  else if j < t.hblankSteps + t.vblankSteps then ⟨t, .vblank, UInt8.ofNat j, 0⟩
  else if j < t.hblankSteps + t.vblankSteps + t.oamLength then
    ⟨t, .oamRead, 0, j - (t.hblankSteps + t.vblankSteps)⟩
  else ⟨t, .transfer, 0, j - (t.hblankSteps + t.vblankSteps + t.oamLength)⟩

/-- The PPU `n` steps after line 0 of horizontal blank: frame after frame, or,
when no line is in vertical blank, horizontal blank for ever. -/
def stateAt (n : Nat) : Ppu :=
  if t.vblankStart ≤ t.lastScanline then t.frameAt (n % t.period)
  else ⟨t, .hblank, UInt8.ofNat n, 0⟩

variable {t}

/-- `hblankSteps` is the least `k ≥ 1` whose line is in vertical blank, when
there is a line of vertical blank at all. -/
theorem hblankSteps_spec (h : t.vblankStart ≤ t.lastScanline) :
    1 ≤ t.hblankSteps ∧ t.hblankSteps ≤ 256 ∧ t.InVblank t.hblankSteps ∧
      ∀ k, 1 ≤ k → k < t.hblankSteps → ¬ t.InVblank k := by
  have hv := t.vblankStart.toNat_lt
  have hl := t.lastScanline.toNat_lt
  rw [UInt8.le_iff_toNat_le] at h
  simp only [hblankSteps, InVblank, ← UInt8.toNat_inj, UInt8.toNat_zero]
  split_ifs <;> exact ⟨by omega, by omega, by omega, fun k _ _ => by omega⟩

theorem not_inVblank (h : ¬ t.vblankStart ≤ t.lastScanline) (k : Nat) : ¬ t.InVblank k := by
  rw [UInt8.le_iff_toNat_le] at h
  unfold InVblank
  omega

/-- Some line is in vertical blank exactly when the blank starts no later than
the frame's last line. -/
theorem exists_inVblank_iff :
    (∃ k, 1 ≤ k ∧ t.InVblank k) ↔ t.vblankStart ≤ t.lastScanline := by
  constructor
  · rintro ⟨k, -, hk⟩
    by_contra h
    exact not_inVblank h k hk
  · intro h
    obtain ⟨h1, -, hin, -⟩ := hblankSteps_spec h
    exact ⟨_, h1, hin⟩

/-- Vertical blank counts up to the last line, and every part of a frame lasts
a step at least. -/
theorem frame_lengths (h : t.vblankStart ≤ t.lastScanline) :
    t.hblankSteps % 256 + t.vblankSteps = t.lastScanline.toNat + 1 ∧ 1 ≤ t.oamLength ∧
      1 ≤ t.transferLength := by
  obtain ⟨-, -, ⟨-, hin⟩, -⟩ := hblankSteps_spec h
  simp only [vblankSteps, oamLength, transferLength]
  omega

theorem period_pos : 0 < t.period := by
  unfold period transferLength
  omega

theorem frameAt_hblank (j : Nat) (hj : j < t.hblankSteps) :
    t.frameAt j = ⟨t, .hblank, UInt8.ofNat j, 0⟩ := by
  rw [frameAt, if_pos hj]

theorem frameAt_vblank (j : Nat) (h1 : t.hblankSteps ≤ j) (h2 : j < t.hblankSteps + t.vblankSteps) :
    t.frameAt j = ⟨t, .vblank, UInt8.ofNat j, 0⟩ := by
  rw [frameAt, if_neg (by omega), if_pos h2]

theorem frameAt_oamRead (j : Nat) (h1 : t.hblankSteps + t.vblankSteps ≤ j)
    (h2 : j < t.hblankSteps + t.vblankSteps + t.oamLength) :
    t.frameAt j = ⟨t, .oamRead, 0, j - (t.hblankSteps + t.vblankSteps)⟩ := by
  rw [frameAt, if_neg (by omega), if_neg (by omega), if_pos h2]

theorem frameAt_transfer (j : Nat) (h1 : t.hblankSteps + t.vblankSteps + t.oamLength ≤ j) :
    t.frameAt j = ⟨t, .transfer, 0, j - (t.hblankSteps + t.vblankSteps + t.oamLength)⟩ := by
  rw [frameAt, if_neg (by omega), if_neg (by omega), if_neg (by omega)]

end Timing

/-! ### One step of the mode machine, mode by mode -/

theorem advance_hblank (t : Timing) (s : UInt8) (c : Nat) :
    advance ⟨t, .hblank, s, c⟩ =
      if t.InVblank (s.toNat + 1) then ⟨t, .vblank, s + 1, c⟩ else ⟨t, .hblank, s + 1, c⟩ := by
  have hiff : (t.vblankStart ≤ s + 1 ∧ s + 1 ≤ t.lastScanline) ↔ t.InVblank (s.toNat + 1) := by
    simp only [Timing.InVblank, UInt8.le_iff_toNat_le, UInt8.toNat_add, UInt8.toNat_one]
  by_cases h : t.InVblank (s.toNat + 1)
  · rw [if_pos h, advance, if_pos (hiff.2 h)]
  · rw [if_neg h, advance, if_neg (mt hiff.1 h)]

theorem advance_vblank (t : Timing) (s : UInt8) (c : Nat) :
    advance ⟨t, .vblank, s, c⟩ =
      if t.lastScanline.toNat ≤ s.toNat then ⟨t, .oamRead, 0, c⟩ else ⟨t, .vblank, s + 1, c⟩ := by
  simp only [advance, ge_iff_le, UInt8.le_iff_toNat_le]

theorem advance_oamRead (t : Timing) (s : UInt8) (c : Nat) :
    advance ⟨t, .oamRead, s, c⟩ =
      if t.oamSteps.toNat ≤ c + 1 then ⟨t, .transfer, s, 0⟩ else ⟨t, .oamRead, s, c + 1⟩ := rfl

theorem advance_transfer (t : Timing) (s : UInt8) (c : Nat) :
    advance ⟨t, .transfer, s, c⟩ =
      if t.transferSteps.toNat ≤ c + 1 then ⟨t, .hblank, s, 0⟩ else ⟨t, .transfer, s, c + 1⟩ := rfl

/-! ### A frame, step by step -/

namespace Timing

variable {t : Timing}

/-- One step inside a frame moves one step on in it, and the last step of the
transfer goes back to its start. The cases are the frame's four parts. -/
theorem advance_frameAt (hvl : t.vblankStart ≤ t.lastScanline) {j : Nat} (hj : j < t.period) :
    (t.frameAt j).advance = t.frameAt ((j + 1) % t.period) := by
  obtain ⟨h1, h256, hin, hmin⟩ := hblankSteps_spec hvl
  obtain ⟨hv, ho, ht⟩ := frame_lengths hvl
  have hlast : t.hblankSteps % 256 ≤ t.lastScanline.toNat := hin.2
  have hP : t.period = t.hblankSteps + t.vblankSteps + t.oamLength + t.transferLength := rfl
  have hO : t.oamLength = max t.oamSteps.toNat 1 := rfl
  have hT : t.transferLength = max t.transferSteps.toNat 1 := rfl
  rcases Nat.lt_or_ge j t.hblankSteps with hh | hh
  · -- horizontal blank: the line counts up until it is one of vertical blank
    have hs : (UInt8.ofNat j).toNat = j := by rw [UInt8.toNat_ofNat']; omega
    have hm : (j + 1) % t.period = j + 1 := Nat.mod_eq_of_lt (by omega)
    rw [frameAt_hblank j hh, advance_hblank, hs, hm, ofNat_add_one]
    by_cases hend : j + 1 = t.hblankSteps
    · rw [if_pos (hend ▸ hin), frameAt_vblank (j + 1) (by omega) (by omega)]
    · rw [if_neg (hmin _ (by omega) (by omega)), frameAt_hblank (j + 1) (by omega)]
  rcases Nat.lt_or_ge j (t.hblankSteps + t.vblankSteps) with hb | hb
  · -- vertical blank: the line counts up to the last, then OAM read starts on line 0
    have hs : (UInt8.ofNat j).toNat = t.hblankSteps % 256 + (j - t.hblankSteps) := by
      have := t.lastScanline.toNat_lt
      rw [UInt8.toNat_ofNat']
      omega
    have hm : (j + 1) % t.period = j + 1 := Nat.mod_eq_of_lt (by omega)
    rw [frameAt_vblank j hh hb, advance_vblank, hs, hm, ofNat_add_one]
    by_cases hend : j + 1 = t.hblankSteps + t.vblankSteps
    · rw [if_pos (by omega), frameAt_oamRead (j + 1) (by omega) (by omega), hend, Nat.sub_self]
    · rw [if_neg (by omega), frameAt_vblank (j + 1) (by omega) (by omega)]
  rcases Nat.lt_or_ge j (t.hblankSteps + t.vblankSteps + t.oamLength) with hr | hr
  · -- OAM read: the clock counts up to `oamLength`, then the transfer starts
    have hm : (j + 1) % t.period = j + 1 := Nat.mod_eq_of_lt (by omega)
    rw [frameAt_oamRead j hb hr, advance_oamRead, hm]
    by_cases hend : j + 1 = t.hblankSteps + t.vblankSteps + t.oamLength
    · rw [if_pos (by omega), frameAt_transfer (j + 1) (by omega), hend, Nat.sub_self]
    · rw [if_neg (by omega), frameAt_oamRead (j + 1) (by omega) (by omega), Nat.sub_add_comm hb]
  · -- the transfer: the clock counts up to `transferLength`, then the frame is over
    rw [frameAt_transfer j hr, advance_transfer]
    by_cases hend : j + 1 = t.period
    · rw [if_pos (by omega), hend, Nat.mod_self, frameAt_hblank 0 h1]
      rfl
    · rw [if_neg (by omega), Nat.mod_eq_of_lt (by omega : j + 1 < t.period),
        frameAt_transfer (j + 1) (by omega), Nat.sub_add_comm hr]

theorem stateAt_zero (t : Timing) : t.stateAt 0 = new t := by
  unfold stateAt
  split_ifs with h
  · rw [Nat.zero_mod, frameAt_hblank 0 (hblankSteps_spec h).1]
    rfl
  · rfl

/-- One step from `stateAt n` is `stateAt (n + 1)`. -/
theorem advance_stateAt (t : Timing) (n : Nat) : (t.stateAt n).advance = t.stateAt (n + 1) := by
  unfold stateAt
  split_ifs with h
  · rw [advance_frameAt h (Nat.mod_lt _ period_pos), Nat.mod_add_mod]
  · -- no line is in vertical blank: the line counts up in horizontal blank for ever
    rw [advance_hblank, if_neg (not_inVblank h _), ofNat_add_one]

theorem stateAt_add_period (h : t.vblankStart ≤ t.lastScanline) (n : Nat) :
    t.stateAt (n + t.period) = t.stateAt n := by
  simp only [stateAt, if_pos h, Nat.add_mod_right]

end Timing

/-- The mode machine from `new t`, `n` steps on, is `t.stateAt n`. -/
theorem advance_iterate_new (t : Timing) (n : Nat) : advance^[n] (new t) = t.stateAt n := by
  induction n with
  | zero => exact (Timing.stateAt_zero t).symm
  | succ n ih => rw [Function.iterate_succ_apply', ih, Timing.advance_stateAt]

/-! ### The bus as the PPU keeps it -/

/-- A step writes LY and STAT and nothing else: a view of the bus that those
writes keep, it keeps. -/
theorem step_keeps {γ : Type} {w : Bus → γ} (hly : ∀ (b : Bus) (x : UInt8), w (b.writeByte ioLy x) = w b)
    (hstat : ∀ (b : Bus) (x : UInt8), w (b.writeByte ioStat x) = w b) (p : Ppu) (bus : Bus) :
    w (p.step bus).2 = w bus := by
  have hs : ∀ (q : Ppu) (b : Bus) (line : UInt8), w (q.setScanline b line).2 = w b := fun _ _ _ => hly _ _
  have he : ∀ (q : Ppu) (b : Bus) (m : Mode), w (q.enter b m).2 = w b := fun _ _ _ => hstat _ _
  have ht : ∀ (q : Ppu) (b : Bus) (n : UInt16) (m : Mode), w (q.tick b n m).2 = w b := by
    intro q b n m
    unfold tick
    split_ifs
    · exact he _ _ _
    · rfl
  -- the four modes, as `step` splits them
  rcases p with ⟨t, _ | _ | _ | _, s, c⟩
  · simp only [step]
    split_ifs
    · rw [he, hs]
    · exact hs _ _ _
  · simp only [step]
    split_ifs
    · rw [he, hs]
    · exact hs _ _ _
  · exact ht _ _ _ _
  · exact ht _ _ _ _

/-- The bus `bus` as the PPU `p` keeps it, against the bus `bus₀` it was first
stepped on: LY holds the line and the low two bits of STAT the mode, while the
upper six bits of STAT and every other byte are those of `bus₀`. -/
structure Mirrors (bus₀ : Bus) (p : Ppu) (bus : Bus) : Prop where
  ly : bus.readByte ioLy = p.scanline
  statMode : bus.readByte ioStat &&& 3 = p.mode.toUInt8
  statHigh : bus.readByte ioStat &&& 0xFC = bus₀.readByte ioStat &&& 0xFC
  others : ∀ a, a ≠ ioLy → a ≠ ioStat → bus.readByte a = bus₀.readByte a

/-- Entering a mode puts its number in the low two bits of STAT and leaves the
upper six alone. -/
theorem stat_enter (m : Mode) (s : UInt8) :
    ((s &&& ~~~0x03) ||| m.toUInt8) &&& 3 = m.toUInt8 ∧
      ((s &&& ~~~0x03) ||| m.toUInt8) &&& 0xFC = s &&& 0xFC := by
  revert s
  rw [forall_uint8]
  cases m <;> decide +kernel

section Mirrors

variable {bus₀ bus : Bus} {p : Ppu}

theorem Mirrors.setScanline (h : Mirrors bus₀ p bus) (line : UInt8) :
    Mirrors bus₀ (p.setScanline bus line).1 (p.setScanline bus line).2 where
  ly := Bus.readByte_writeByte_self bus line (by decide)
  statMode := by
    rw [Ppu.setScanline, Bus.readByte_writeByte_io bus line (by decide) (by decide)]
    exact h.statMode
  statHigh := by
    rw [Ppu.setScanline, Bus.readByte_writeByte_io bus line (by decide) (by decide)]
    exact h.statHigh
  others a hly hstat := by
    rw [Ppu.setScanline, Bus.readByte_writeByte_io bus line (by decide) hly]
    exact h.others a hly hstat

theorem Mirrors.enter (h : Mirrors bus₀ p bus) (m : Mode) :
    Mirrors bus₀ (p.enter bus m).1 (p.enter bus m).2 where
  ly := by
    rw [Ppu.enter, Bus.readByte_writeByte_io _ _ (by decide) (by decide)]
    exact h.ly
  statMode := by
    rw [Ppu.enter, Bus.readByte_writeByte_self _ _ (by decide)]
    exact (stat_enter m _).1
  statHigh := by
    rw [Ppu.enter, Bus.readByte_writeByte_self _ _ (by decide), (stat_enter m _).2]
    exact h.statHigh
  others a hly hstat := by
    rw [Ppu.enter, Bus.readByte_writeByte_io _ _ (by decide) hstat]
    exact h.others a hly hstat

/-- The clock plays no part in what the bus mirrors. -/
theorem Mirrors.clock (h : Mirrors bus₀ p bus) (c : Nat) : Mirrors bus₀ { p with clock := c } bus :=
  ⟨h.ly, h.statMode, h.statHigh, h.others⟩

theorem Mirrors.tick (h : Mirrors bus₀ p bus) (steps : UInt16) (m : Mode) :
    Mirrors bus₀ (p.tick bus steps m).1 (p.tick bus steps m).2 := by
  unfold Ppu.tick
  split_ifs
  · exact (h.clock 0).enter m
  · exact h.clock _

/-- One step keeps the bus mirroring the PPU. -/
theorem Mirrors.step (h : Mirrors bus₀ p bus) : Mirrors bus₀ (p.step bus).1 (p.step bus).2 := by
  rcases p with ⟨t, _ | _ | _ | _, s, c⟩
  · have h' := h.setScanline (s + 1)
    simp only [Ppu.step]
    split_ifs
    · exact h'.enter .vblank
    · exact h'
  · simp only [Ppu.step]
    split_ifs
    · exact (h.setScanline 0).enter .oamRead
    · exact h.setScanline (s + 1)
  · exact h.tick _ _
  · exact h.tick _ _

/-- A whole run keeps the bus mirroring the PPU. -/
theorem Mirrors.runFrom (h : Mirrors bus₀ p bus) (seen : Array (Mode × UInt8)) (n : Nat) :
    Mirrors bus₀ (p.runFrom bus seen n).1 (p.runFrom bus seen n).2.1 := by
  induction n generalizing p bus seen with
  | zero => exact h
  | succ n ih =>
    rw [runFrom_succ]
    exact ih h.step _

end Mirrors

/-- A bus with LY and the mode bits of STAT at zero mirrors a new PPU. -/
theorem mirrors_new (t : Timing) {bus : Bus} (hly : bus.readByte ioLy = 0)
    (hstat : bus.readByte ioStat &&& 3 = 0) : Mirrors bus (new t) bus :=
  ⟨hly, hstat, rfl, fun _ _ _ => rfl⟩

/-- The PPU's frame in closed form. Stepped from `new` or from a reset, on any
bus, the PPU after `n` steps is `stateAt n`: horizontal blank for
`hblankSteps` steps, the least `k ≥ 1` whose line is in vertical blank (with no
such line, horizontal blank for ever); vertical blank up to the last line; OAM
read and the transfer on line 0 for `max steps 1` steps each; and then line 0
of horizontal blank again, so that the frame repeats every `period` steps, 554
for the standard timing. On a bus whose LY and STAT mode bits start at zero,
after every step LY is the line, the low bits of STAT the mode, and no other bit
or byte has changed. -/
theorem run_closed_form :
    (∀ t : Timing, (∃ k, 1 ≤ k ∧ t.InVblank k) ↔ t.vblankStart ≤ t.lastScanline) ∧
    (∀ t : Timing, t.vblankStart ≤ t.lastScanline →
      1 ≤ t.hblankSteps ∧ t.InVblank t.hblankSteps ∧
        ∀ k, 1 ≤ k → k < t.hblankSteps → ¬ t.InVblank k) ∧
    (∀ (t : Timing) (p : Ppu) (bus : Bus) (n : Nat),
      ((new t).run bus n).1 = t.stateAt n ∧ (p.reset.run bus n).1 = p.timing.stateAt n) ∧
    (∀ t : Timing, t.vblankStart ≤ t.lastScanline →
      t.stateAt t.period = new t ∧ ∀ n, t.stateAt (n + t.period) = t.stateAt n) ∧
    Timing.standard.period = 554 ∧
    (∀ (t : Timing) (p : Ppu) (bus : Bus) (n : Nat),
      bus.readByte ioLy = 0 → bus.readByte ioStat &&& 3 = 0 →
      Mirrors bus ((new t).run bus n).1 ((new t).run bus n).2.1 ∧
        Mirrors bus (p.reset.run bus n).1 (p.reset.run bus n).2.1) := by
  refine ⟨fun _ => Timing.exists_inVblank_iff, ?_, ?_, ?_, rfl, ?_⟩
  · intro t h
    obtain ⟨h1, -, hin, hmin⟩ := Timing.hblankSteps_spec h
    exact ⟨h1, hin, hmin⟩
  · intro t p bus n
    rw [reset_eq_new, run_fst, run_fst, advance_iterate_new, advance_iterate_new]
    exact ⟨rfl, rfl⟩
  · intro t h
    refine ⟨?_, Timing.stateAt_add_period h⟩
    rw [← Nat.zero_add t.period, Timing.stateAt_add_period h, Timing.stateAt_zero]
  · intro t p bus n hly hstat
    rw [reset_eq_new]
    exact ⟨(mirrors_new t hly hstat).runFrom #[] n, (mirrors_new p.timing hly hstat).runFrom #[] n⟩

/-- The standard frame on a fresh bus: its blank is reached, it comes back to
its start after a period, and the bus mirrors it after a few hundred steps. -/
theorem standard_frame_on_new_bus :
    Timing.standard.vblankStart ≤ Timing.standard.lastScanline ∧
      Timing.standard.InVblank Timing.standard.hblankSteps ∧
      Timing.standard.stateAt Timing.standard.period = new .standard ∧
      (Bus.new .dmg).readByte ioLy = 0 ∧ (Bus.new .dmg).readByte ioStat &&& 3 = 0 ∧
      Mirrors (Bus.new .dmg) ((new .standard).run (Bus.new .dmg) 300).1
        ((new .standard).run (Bus.new .dmg) 300).2.1 := by
  have hvl : Timing.standard.vblankStart ≤ Timing.standard.lastScanline := by decide
  have hly : (Bus.new .dmg).readByte ioLy = 0 := by rw [Bus.readByte_new]; decide
  have hstat : (Bus.new .dmg).readByte ioStat &&& 3 = 0 := by rw [Bus.readByte_new]; decide
  obtain ⟨-, hspec, -, hperiod, -, hbus⟩ := run_closed_form
  exact ⟨hvl, (hspec _ hvl).2.1, (hperiod _ hvl).1, hly, hstat,
    (hbus .standard (new .standard) (Bus.new .dmg) 300 hly hstat).1⟩

end Ppu
end Dmg
