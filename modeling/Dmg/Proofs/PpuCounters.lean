import Mathlib.Algebra.Group.Nat.Defs
import Dmg.Proofs.PpuFrame
/-!
# The PPU's counters stay in range

The PPU counts steps in its clock and lines in its line counter, and neither
count is checked for overflow: the clock is a 16-bit count incremented once
per step of OAM read or of the transfer, and the line goes up by one per step
of vertical blank below the last line. Both stay in range for every timing,
however short or long its phases and whether or not it has a vertical blank,
because of one invariant kept by every step and reset (`Ppu.Counters`): the
clock is zero in both blanks and below the phase's length (`max steps 1`) in
the two OAM phases, and vertical blank never runs past the last line. The
invariant is what lets OAM read start counting from zero although vertical
blank hands over to it without touching the clock.

Key definitions: `Ppu.Reachable`, `Ppu.Counters`.
Key theorems: `Ppu.Counters.advance`, `Ppu.Reachable.counters`,
`Ppu.counters_stay_in_range`.
-/

namespace Dmg
namespace Ppu

/-- The PPU states a run can reach from a fresh PPU: steps on any bus, and
resets. -/
inductive Reachable : Ppu → Prop
  | new (t : Timing) : Reachable (new t)
  | step {p : Ppu} (bus : Bus) : Reachable p → Reachable (p.step bus).1
  | reset {p : Ppu} : Reachable p → Reachable p.reset

/-- A reachable PPU stepped without its bus is reachable. -/
theorem Reachable.advance {p : Ppu} (h : Reachable p) : Reachable p.advance :=
  step_fst p (Bus.new .dmg) ▸ h.step (Bus.new .dmg)

/-- What keeps the counters in range. -/
structure Counters (p : Ppu) : Prop where
  /-- Both blanks leave the clock at zero. -/
  blank_clock : p.mode = .hblank ∨ p.mode = .vblank → p.clock = 0
  /-- OAM read has counted fewer steps than it lasts. -/
  oam_clock : p.mode = .oamRead → p.clock < p.timing.oamLength
  /-- So has the transfer. -/
  transfer_clock : p.mode = .transfer → p.clock < p.timing.transferLength
  /-- Vertical blank is on a line no later than the last. -/
  vblank_line : p.mode = .vblank → p.scanline.toNat ≤ p.timing.lastScanline.toNat

theorem counters_new (t : Timing) : Counters (new t) where
  blank_clock _ := rfl
  oam_clock h := nomatch h
  transfer_clock h := nomatch h
  vblank_line h := nomatch h

/-- Every step keeps the counters in range. The cases are the four modes; in
each the step either stays in the mode, counting, or enters the next mode with
the clock at zero. -/
theorem Counters.advance {p : Ppu} (h : Counters p) : Counters p.advance := by
  rcases p with ⟨t, m, s, c⟩
  have hO : 0 < t.oamLength := by unfold Timing.oamLength; omega
  have hT : 0 < t.transferLength := by unfold Timing.transferLength; omega
  cases m with
  | hblank =>
    have hc : c = 0 := h.blank_clock (.inl rfl)
    rw [advance_hblank]
    split_ifs with hv
    · -- the new line is one of vertical blank, so no later than the last
      have hline : (s + 1).toNat ≤ t.lastScanline.toNat := by
        rw [UInt8.toNat_add, UInt8.toNat_one]
        exact hv.2
      exact ⟨fun _ => hc, nofun, nofun, fun _ => hline⟩
    · exact ⟨fun _ => hc, nofun, nofun, nofun⟩
  | vblank =>
    have hc : c = 0 := h.blank_clock (.inr rfl)
    rw [advance_vblank]
    split_ifs with hl
    · -- OAM read starts with the clock vertical blank left at zero
      exact ⟨nofun, fun _ => hc ▸ hO, nofun, nofun⟩
    · -- below the last line, the next line is still no later than the last
      have hline : (s + 1).toNat ≤ t.lastScanline.toNat := by
        rw [UInt8.toNat_add, UInt8.toNat_one]
        omega
      exact ⟨fun _ => hc, nofun, nofun, fun _ => hline⟩
  | oamRead =>
    rw [advance_oamRead]
    split_ifs with hend
    · exact ⟨nofun, nofun, fun _ => hT, nofun⟩
    · have hlt : c + 1 < t.oamLength := by unfold Timing.oamLength; omega
      exact ⟨nofun, fun _ => hlt, nofun, nofun⟩
  | transfer =>
    rw [advance_transfer]
    split_ifs with hend
    · exact ⟨fun _ => rfl, nofun, nofun, nofun⟩
    · have hlt : c + 1 < t.transferLength := by unfold Timing.transferLength; omega
      exact ⟨nofun, nofun, fun _ => hlt, nofun⟩

/-- Every reachable PPU keeps its counters in range. -/
theorem Reachable.counters {p : Ppu} (h : Reachable p) : Counters p := by
  induction h with
  | new t => exact counters_new t
  | step bus _ ih => rw [step_fst]; exact ih.advance
  | reset _ => rw [reset_eq_new]; exact counters_new _

/-- **The PPU's counters never overflow.** In every state a run reaches, the
clock is zero in both blanks and below `max steps 1` of its phase in the two
OAM phases, so the clock's increment stays within 16 bits; vertical blank is
never past the last line, so the line's increment below it stays within 8
bits. -/
theorem counters_stay_in_range {p : Ppu} (h : Reachable p) :
    (p.mode = .hblank ∨ p.mode = .vblank → p.clock = 0) ∧
    (p.mode = .oamRead → p.clock < max p.timing.oamSteps.toNat 1) ∧
    (p.mode = .transfer → p.clock < max p.timing.transferSteps.toNat 1) ∧
    (p.mode = .vblank → p.scanline.toNat ≤ p.timing.lastScanline.toNat) ∧
    (p.mode = .oamRead ∨ p.mode = .transfer → p.clock + 1 < 2 ^ 16) ∧
    (p.mode = .vblank → p.scanline < p.timing.lastScanline → p.scanline.toNat + 1 < 2 ^ 8) := by
  have hc := h.counters
  have hO : p.timing.oamSteps.toNat < 2 ^ 16 := p.timing.oamSteps.toNat_lt
  have hT : p.timing.transferSteps.toNat < 2 ^ 16 := p.timing.transferSteps.toNat_lt
  refine ⟨hc.blank_clock, hc.oam_clock, hc.transfer_clock, hc.vblank_line, ?_, ?_⟩
  · rintro (hm | hm)
    · have := hc.oam_clock hm
      unfold Timing.oamLength at this
      omega
    · have := hc.transfer_clock hm
      unfold Timing.transferLength at this
      omega
  · intro hm hlt
    have := hc.vblank_line hm
    have := p.timing.lastScanline.toNat_lt
    rw [UInt8.lt_iff_toNat_lt] at hlt
    omega

/-- With the longest OAM read there is, two steps into a one-line frame the
PPU is in OAM read and its next increment stays within 16 bits. -/
theorem longest_oam_read_in_range :
    Reachable (new ⟨1, 1, 65535, 0⟩).advance.advance ∧
      (new ⟨1, 1, 65535, 0⟩).advance.advance.mode = .oamRead ∧
      (new ⟨1, 1, 65535, 0⟩).advance.advance.clock + 1 < 2 ^ 16 :=
  have h : Reachable (new ⟨1, 1, 65535, 0⟩).advance.advance := (Reachable.new _).advance.advance
  ⟨h, rfl, (counters_stay_in_range h).2.2.2.2.1 (.inl rfl)⟩

end Ppu
end Dmg
