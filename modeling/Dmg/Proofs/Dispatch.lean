import Dmg.Proofs.Flow
/-!
# Servicing interrupts

A pass of the interrupt controller (`Controller.service`) does nothing when the
master enable is off. When it is on, it takes the active set
`A = IE & IF & 0x1F` once, at entry, and calls the handlers of exactly the
sources of `A`, each once and in priority order (`Source.ofSet`); just before
the handler of a source runs, that source's bit is cleared from IF as IF reads
at that moment (`Controller.service_eq`). A bit a handler raises is therefore
serviced in the same pass only if it was in `A` and its turn is still to come.

With handlers that leave the bus alone the clears add up: the pass writes
`IF & ~A` to IF and nothing else, so nothing is active any more and a second
pass services nothing (`Controller.service_keepsBus`).

Key definitions: `Source.ofSet`, `Source.maskOf`, `Hooks.KeepsBus`.
Key theorems: `Source.mem_ofSet`, `Source.pairwise_ofSet`,
`Controller.service_eq`, `Controller.service_keepsBus`,
`Controller.service_dispatches`.
-/

namespace Dmg

/-! ### The sources of a bit set -/

namespace Source

/-- The sources of a bit set, in priority order. -/
def ofSet (set : UInt8) : List Source := all.filter fun s => set &&& s.mask != 0

/-- The bits of a list of sources, together. -/
def maskOf : List Source → UInt8
  | [] => 0
  | s :: ss => s.mask ||| maskOf ss

theorem mem_ofSet {set : UInt8} {s : Source} : s ∈ ofSet set ↔ set &&& s.mask ≠ 0 := by
  cases s <;> simp [ofSet, all]

/-- The sources of a set come in priority order, each once. -/
theorem pairwise_ofSet (set : UInt8) : (ofSet set).Pairwise fun a b => a.index < b.index :=
  List.Pairwise.sublist List.filter_sublist (by decide)

/-- The sources of a set have its low five bits and no other. -/
theorem maskOf_ofSet : ∀ set : UInt8, maskOf (ofSet set) = set &&& 0x1F := by
  rw [forall_uint8]
  decide +kernel

end Source

/-- The active set has no bit above the five sources'. -/
theorem activeSet_and_low (bus : Bus) : activeSet bus &&& 0x1F = activeSet bus := by
  simp only [activeSet, pendingSet, UInt8.and_assoc, UInt8.and_self]

/-- The active set is `IE & IF & 0x1F`. -/
theorem activeSet_eq (bus : Bus) :
    activeSet bus = bus.readByte ioIe &&& bus.readByte ioIf &&& 0x1F := by
  simp only [activeSet, enabledSet, pendingSet]
  ac_rfl

/-! ### Clearing bits -/

theorem UInt8.and_not_and_not (v m m' : UInt8) : v &&& ~~~m &&& ~~~m' = v &&& ~~~(m ||| m') := by
  rw [← UInt8.toBitVec_inj]
  simp only [UInt8.toBitVec_and, UInt8.toBitVec_not, UInt8.toBitVec_or, BitVec.not_or,
    BitVec.and_assoc]

namespace Bus

/-- A second write to an address replaces the first. -/
theorem writeByte_writeByte_same (b : Bus) (a : UInt16) (v w : UInt8) :
    (b.writeByte a v).writeByte a w = b.writeByte a w := by
  have hm : ((b.writeByte a v).writeByte a w).memory = (b.writeByte a w).memory := by
    ext i hi
    simp only [getElem_writeByte]
    split_ifs <;> rfl
  cases b
  simp only [writeByte] at hm ⊢
  split_ifs at hm ⊢ <;> simp_all

/-- Writing an address with no echo partner the byte it holds changes nothing. -/
theorem writeByte_readByte_self (b : Bus) {a : UInt16} (ha : echoOf? a = none) :
    b.writeByte a (b.readByte a) = b := by
  have hlt : a.toNat < 0x10000 := a.toNat_lt
  have hget : b.readByte a = b.memory[a.toNat] := rfl
  unfold writeByte
  split_ifs
  · rfl
  · simp only [ha, poke, hget, Vector.set_getElem_self]

end Bus

theorem echoOf?_ioIf : echoOf? ioIf = none := by decide

/-! ### A pass of the controller -/

namespace Controller

variable {σ : Type} (hooks : Hooks σ)

/-- A pass of the controller is the sequence of `serviceOne` calls for the
sources of the active set, taken once at entry, in priority order. -/
theorem service_eq (ctl : Controller σ) (bus : Bus) :
    ctl.service hooks bus =
      if ctl.ime then
        let r := (Source.ofSet (activeSet bus)).foldl
          (fun acc s => serviceOne hooks s acc.1 acc.2) (ctl.state, bus)
        ({ ctl with state := r.1 }, r.2, activeSet bus)
      else (ctl, bus, 0) := by
  unfold service
  split
  · -- the pass skips a source exactly when the filter leaves it out
    simp only [Source.ofSet, List.foldl_filter, bne_iff_ne, ne_eq, ite_not]
  · rfl

/-- A pass writes IF and lets the handlers run: a view of the bus that the
handlers and the writes to IF keep, it keeps. -/
theorem service_keeps {γ : Type} {w : Bus → γ} (hk : ∀ s st bus, w (hooks.run s st bus).2 = w bus)
    (hif : ∀ (b : Bus) (x : UInt8), w (b.writeByte ioIf x) = w b) (ctl : Controller σ) (bus : Bus) :
    w (ctl.service hooks bus).2.1 = w bus := by
  -- the serviced sources one after another, each a write to IF and a handler
  have hfold : ∀ (ss : List Source) (st : σ) (b : Bus),
      w (ss.foldl (fun acc s => serviceOne hooks s acc.1 acc.2) (st, b)).2 = w b := by
    intro ss
    induction ss with
    | nil => exact fun _ _ => rfl
    | cons s ss ih =>
      intro st b
      rw [List.foldl_cons, ← Prod.mk.eta (p := serviceOne hooks s st b), ih, serviceOne, hk, hif]
  rw [service_eq]
  split
  · exact hfold _ _ _
  · rfl

end Controller

/-- Handlers that leave the bus as they find it. -/
def Hooks.KeepsBus {σ : Type} (hooks : Hooks σ) : Prop := ∀ s st bus, (hooks.run s st bus).2 = bus

theorem Hooks.none_keepsBus : Hooks.none.KeepsBus := fun _ _ _ => rfl

namespace Controller

variable {σ : Type} {hooks : Hooks σ}

/-- With handlers that leave the bus alone, servicing a list of sources clears
their bits from IF, and that is all it writes. -/
theorem foldl_serviceOne_keepsBus (hh : hooks.KeepsBus) :
    ∀ (ss : List Source) (st : σ) (b : Bus),
      (ss.foldl (fun acc s => serviceOne hooks s acc.1 acc.2) (st, b)).2 =
        b.writeByte ioIf (b.readByte ioIf &&& ~~~Source.maskOf ss)
  | [], _, b => by
    have hclear : b.readByte ioIf &&& ~~~Source.maskOf [] = b.readByte ioIf := by simp [Source.maskOf]
    rw [hclear, Bus.writeByte_readByte_self b echoOf?_ioIf]
    rfl
  | s :: ss, st, b => by
    -- the handler gives back the bus with `s` cleared, and the rest clears on top of it
    have hone : (serviceOne hooks s st b).2 = b.writeByte ioIf (b.readByte ioIf &&& ~~~s.mask) :=
      hh _ _ _
    rw [List.foldl_cons, ← Prod.mk.eta (p := serviceOne hooks s st b),
      foldl_serviceOne_keepsBus hh ss, hone, Bus.readByte_writeByte_self _ _ (by decide),
      Bus.writeByte_writeByte_same, UInt8.and_not_and_not, Source.maskOf]

/-- With handlers that leave the bus alone, a pass writes `IF & ~A` to IF, `A`
being the set it serviced, and nothing else; after it nothing is active, so a
second pass services nothing and changes nothing. -/
theorem service_keepsBus (hh : hooks.KeepsBus) (ctl : Controller σ) (bus : Bus) :
    (ctl.service hooks bus).2.1 =
        bus.writeByte ioIf (bus.readByte ioIf &&& ~~~(ctl.service hooks bus).2.2) ∧
      (ctl.service hooks bus).1.service hooks (ctl.service hooks bus).2.1 =
        ((ctl.service hooks bus).1, (ctl.service hooks bus).2.1, 0) := by
  rw [service_eq]
  cases hime : ctl.ime
  · have hclear : bus.readByte ioIf &&& ~~~0 = bus.readByte ioIf := by simp
    simp only [Bool.false_eq_true, if_false]
    refine ⟨?_, by simp [service, hime]⟩
    rw [hclear, Bus.writeByte_readByte_self bus echoOf?_ioIf]
  · simp only [if_true]
    rw [foldl_serviceOne_keepsBus hh, Source.maskOf_ofSet, activeSet_and_low]
    refine ⟨rfl, ?_⟩
    -- IF has lost every active bit and IE is as it was, so the active set is empty
    have hif : (bus.writeByte ioIf (bus.readByte ioIf &&& ~~~activeSet bus)).readByte ioIf =
        bus.readByte ioIf &&& ~~~activeSet bus := Bus.readByte_writeByte_self _ _ (by decide)
    have hie : (bus.writeByte ioIf (bus.readByte ioIf &&& ~~~activeSet bus)).readByte ioIe =
        bus.readByte ioIe := Bus.readByte_writeByte_io _ _ (by decide) (by decide)
    have hnone : activeSet (bus.writeByte ioIf (bus.readByte ioIf &&& ~~~activeSet bus)) = 0 := by
      rw [activeSet_eq, hif, hie, activeSet_eq]
      generalize bus.readByte ioIe = e
      generalize bus.readByte ioIf = f
      rw [← UInt8.toBitVec_inj]
      simp only [UInt8.toBitVec_and, UInt8.toBitVec_not, UInt8.toBitVec_ofNat]
      ext i
      simp only [BitVec.getElem_and, BitVec.getElem_not, BitVec.getElem_zero]
      cases e.toBitVec[i] <;> cases f.toBitVec[i] <;> simp
    rw [service_eq]
    simp only [if_true, hnone]
    rfl

/-- A pass of the interrupt controller, for every bus, master enable and
handlers. With the master enable off it changes nothing, runs no handler and
services nothing. With it on, it takes `A = IE & IF & 0x1F` once, at entry, and
runs the handlers of exactly the sources of `A`, once each and in priority
order, each just after clearing its own bit from IF as IF then reads; it
returns `A`. It never changes the master enable. With handlers that leave the
bus alone, IF ends as `IF & ~A`, every other byte, IE included, is as it was,
and a second pass services nothing and changes nothing. -/
theorem service_dispatches (hooks : Hooks σ) (ctl : Controller σ) (bus : Bus) :
    (ctl.ime = false → ctl.service hooks bus = (ctl, bus, 0)) ∧
    (ctl.ime = true → ctl.service hooks bus =
      let active := bus.readByte ioIe &&& bus.readByte ioIf &&& 0x1F
      let r := (Source.ofSet active).foldl
        (fun acc s => hooks.run s acc.1 (acc.2.writeByte ioIf (acc.2.readByte ioIf &&& ~~~s.mask)))
        (ctl.state, bus)
      ({ ctl with state := r.1 }, r.2, active)) ∧
    (∀ set : UInt8, (∀ s, s ∈ Source.ofSet set ↔ set &&& s.mask ≠ 0) ∧
      (Source.ofSet set).Pairwise fun a b => a.index < b.index) ∧
    (ctl.service hooks bus).1.ime = ctl.ime ∧
    (hooks.KeepsBus →
      (ctl.service hooks bus).2.1.readByte ioIf = bus.readByte ioIf &&& ~~~(ctl.service hooks bus).2.2 ∧
      (∀ a, a ≠ ioIf → (ctl.service hooks bus).2.1.readByte a = bus.readByte a) ∧
      (ctl.service hooks bus).1.service hooks (ctl.service hooks bus).2.1 =
        ((ctl.service hooks bus).1, (ctl.service hooks bus).2.1, 0)) := by
  refine ⟨fun h => ?_, fun h => ?_, fun set => ⟨fun s => Source.mem_ofSet, Source.pairwise_ofSet set⟩,
    ime_service hooks ctl bus, fun hh => ?_⟩
  · simp [service, h]
  · rw [service_eq, if_pos h, activeSet_eq]
    rfl
  · obtain ⟨heq, hagain⟩ := service_keepsBus hh ctl bus
    refine ⟨?_, fun a ha => ?_, hagain⟩
    · rw [heq]
      exact Bus.readByte_writeByte_self _ _ (by decide)
    · rw [heq]
      exact Bus.readByte_writeByte_io _ _ (by decide) ha

/-- VBlank and timer both requested and allowed, with handlers that do
nothing: with the master enable off nothing happens; with it on, a second pass
finds nothing to do. -/
theorem service_vblank_and_timer :
    (⟨false, ()⟩ : Controller Unit).ime = false ∧
      (⟨false, ()⟩ : Controller Unit).service Hooks.none
          (((Bus.new .dmg).writeByte ioIe 0x05).writeByte ioIf 0xE5) =
        (⟨false, ()⟩, ((Bus.new .dmg).writeByte ioIe 0x05).writeByte ioIf 0xE5, 0) ∧
    Hooks.none.KeepsBus ∧
      ((⟨true, ()⟩ : Controller Unit).service Hooks.none
          (((Bus.new .dmg).writeByte ioIe 0x05).writeByte ioIf 0xE5)).1.service Hooks.none
          ((⟨true, ()⟩ : Controller Unit).service Hooks.none
            (((Bus.new .dmg).writeByte ioIe 0x05).writeByte ioIf 0xE5)).2.1 =
        (((⟨true, ()⟩ : Controller Unit).service Hooks.none
            (((Bus.new .dmg).writeByte ioIe 0x05).writeByte ioIf 0xE5)).1,
          ((⟨true, ()⟩ : Controller Unit).service Hooks.none
            (((Bus.new .dmg).writeByte ioIe 0x05).writeByte ioIf 0xE5)).2.1, 0) :=
  ⟨rfl, (service_dispatches Hooks.none ⟨false, ()⟩ _).1 rfl, Hooks.none_keepsBus,
    ((service_dispatches Hooks.none ⟨true, ()⟩ _).2.2.2.2 Hooks.none_keepsBus).2.2⟩

end Controller
end Dmg
