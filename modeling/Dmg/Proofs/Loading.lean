import Dmg.Proofs.Reset
import Dmg.Proofs.Words
/-!
# Loading a cartridge

A load checks before it changes anything. `Console.loadRom` takes the
cartridge-type byte from the header at 0x147, and fails with `EmptyRom` when
the image is too short to have one; the type must then be one of the known
types (`Cartridge.kinds`), or the load fails with `UnsupportedCartridge`.
Only a load that passes both checks changes the machine. A failed load gives
no console back, so the session keeps the one it had; on the bus, a failed
load leaves the bus as it was.

A load that passes is exactly a reset of the console with the new cartridge
in its bus (`Console.loadCartridge_eq`): whatever memory held before, reset
rebuilds it from the cartridge, and the ROM window shows the first
`min(len, 0x8000)` bytes of the image followed by zeros, so nothing of an
earlier, longer image survives. The bus's own load changes only the ROM
window and the cartridge.

Key theorems: `Cartridge.make_eq`, `Cartridge.lookup_kinds_eq_none_iff`,
`Bus.loadCartridge_eq`, `Console.loadCartridge_eq`, `Console.loadRom_eq`,
`Console.load_checks_then_resets`.
-/

namespace Dmg

namespace Cartridge

/-- A cartridge is made exactly from a known type byte, with that type's
description and the hardware it names. -/
theorem make_eq (rom : Array UInt8) (kind : UInt8) :
    make rom kind =
      match kinds.lookup kind with
      | some d => .ok ⟨rom, kind, d, Capabilities.parse d⟩
      | none => .error (.unsupportedCartridge kind) := by
  unfold make describe
  cases kinds.lookup kind <;> rfl

/-- A type byte has no description exactly when it is none of the known
types. -/
theorem lookup_kinds_eq_none_iff (kind : UInt8) :
    kinds.lookup kind = none ↔ kind ∉ kinds.map Prod.fst := by
  simp only [List.lookup_eq_none_iff, bne_iff_ne, ne_eq, List.mem_map, not_exists, not_and]
  exact ⟨fun h p hp hk => h p hp hk.symm, fun h p hp hk => h p hp hk.symm⟩

/-- Making a cartridge fails exactly on an unknown type, naming that type. -/
theorem make_eq_error_iff (rom : Array UInt8) (kind : UInt8) (f : Fault) :
    make rom kind = .error f ↔ kind ∉ kinds.map Prod.fst ∧ f = .unsupportedCartridge kind := by
  rw [make_eq, ← lookup_kinds_eq_none_iff]
  cases kinds.lookup kind <;> simp [eq_comm]

/-- The image a cartridge shows in the ROM window: its ROM's first
`min(len, 0x8000)` bytes, then zeros. -/
theorem image_eq (c : Cartridge) :
    c.image = c.rom.toList.take (min c.rom.size 0x8000) ++
      List.replicate (0x8000 - min c.rom.size 0x8000) 0 := rfl

end Cartridge

namespace Bus

/-- The bus's load makes the cartridge first, and only then maps it over the
ROM window. -/
theorem loadCartridge_eq (b : Bus) (rom : Array UInt8) (kind : UInt8) :
    b.loadCartridge rom kind = (Cartridge.make rom kind).map fun c =>
      { b with
        memory := Vector.ofFn fun i => if i.val < 0x8000 then c.windowByte i.val else b.memory.get i
        cartridge := some c } := by
  unfold loadCartridge
  cases Cartridge.make rom kind <;> rfl

theorem romMapped_reset (b : Bus) : b.reset.RomMapped := romMapped_powerOn b.model b.cartridge

/-- A reset bus shows its cartridge in the ROM window. -/
theorem romWindow_reset (b : Bus) :
    b.reset.romWindow = (b.cartridge.map Cartridge.image).getD (List.replicate 0x8000 0) := by
  rw [romWindow_eq (romMapped_reset b), cartridge_reset]

/-- The bus's load keeps every byte from 0x8000 up. -/
theorem readByte_loadCartridge_high {b b' : Bus} {rom : Array UInt8} {kind : UInt8}
    (h : b.loadCartridge rom kind = .ok b') {x : UInt16} (hx : 0x8000 ≤ x.toNat) :
    b'.readByte x = b.readByte x := by
  obtain ⟨c, -, rfl⟩ := loadCartridge_eq_ok.1 h
  have hlt := x.toNat_lt
  change (Vector.ofFn _)[x.toNat] = b.memory[x.toNat]
  simp only [Vector.getElem_ofFn, show ¬ x.toNat < 0x8000 by omega, if_false]
  rfl

end Bus

namespace Console

variable {σ : Type}

/-- A reset reads of the bus only its model and its cartridge. -/
theorem reset_bus_eq (c : Console σ) {b₁ b₂ : Bus} (hm : b₁.model = b₂.model)
    (hc : b₁.cartridge = b₂.cartridge) : ({ c with bus := b₁ }).reset = ({ c with bus := b₂ }).reset := by
  simp only [reset, Bus.reset_eq_of_agree hm hc]

/-- Loading a cartridge of a given type is the cartridge check, and then a
reset of the console with the new cartridge in its bus; what the load maps
into memory is rebuilt by the reset. -/
theorem loadCartridge_eq (c : Console σ) (rom : Array UInt8) (kind : UInt8) :
    c.loadCartridge rom kind = (Cartridge.make rom kind).map fun cart =>
      ({ c with bus := { c.bus with cartridge := some cart } }).reset := by
  unfold loadCartridge
  rw [Bus.loadCartridge_eq]
  cases Cartridge.make rom kind with
  | error f => rfl
  | ok cart =>
    -- the reset rebuilds memory from the model and the cartridge alone
    exact congrArg Except.ok (reset_bus_eq c rfl rfl)

/-- Loading a ROM image is the header check, the cartridge check, and a reset
with the new cartridge. -/
theorem loadRom_eq (c : Console σ) (rom : Array UInt8) :
    c.loadRom rom =
      match rom[0x147]? with
      | some kind => (Cartridge.make rom kind).map fun cart =>
          ({ c with bus := { c.bus with cartridge := some cart } }).reset
      | none => .error .emptyRom := by
  unfold loadRom cartridgeTypeOffset
  cases rom[0x147]? with
  | none => rfl
  | some kind => exact loadCartridge_eq c rom kind

/-- A load fails on an image too short for the type byte, with `EmptyRom`,
or on an unknown type byte `t`, with `UnsupportedCartridge t`. -/
theorem loadRom_eq_error_iff (c : Console σ) (rom : Array UInt8) (f : Fault) :
    c.loadRom rom = .error f ↔
      (rom.size ≤ 0x147 ∧ f = .emptyRom) ∨
        ∃ t, rom[0x147]? = some t ∧ t ∉ Cartridge.kinds.map Prod.fst ∧ f = .unsupportedCartridge t := by
  rw [loadRom_eq]
  cases ht : rom[0x147]? with
  | none => simp [Array.getElem?_eq_none_iff.1 ht, eq_comm]
  | some t =>
    have hs : ¬ rom.size ≤ 0x147 := fun h => by simp [Array.getElem?_eq_none_iff.2 h] at ht
    dsimp only
    cases hm : Cartridge.make rom t with
    | error e =>
      obtain ⟨hk, rfl⟩ := (Cartridge.make_eq_error_iff rom t e).1 hm
      constructor
      · intro h
        simp only [Except.map, Except.error.injEq] at h
        exact .inr ⟨t, rfl, hk, h.symm⟩
      · rintro (⟨h, -⟩ | ⟨t', ht', -, rfl⟩)
        · exact absurd h hs
        · cases ht'
          rfl
    | ok cart =>
      have hk : ¬ t ∉ Cartridge.kinds.map Prod.fst := fun hk => by
        simp [(Cartridge.make_eq_error_iff rom t _).2 ⟨hk, rfl⟩] at hm
      refine iff_of_false (by simp [Except.map]) ?_
      rintro (⟨h, -⟩ | ⟨t', ht', hk', -⟩)
      · exact hs h
      · cases ht'
        exact hk hk'

/-- A load succeeds exactly on a known type byte, and gives the reset of the
console with the cartridge of that type. -/
theorem loadRom_eq_ok_iff (c : Console σ) (rom : Array UInt8) (c' : Console σ) :
    c.loadRom rom = .ok c' ↔ ∃ t d, rom[0x147]? = some t ∧ Cartridge.kinds.lookup t = some d ∧
      c' = ({ c with bus := { c.bus with cartridge := some ⟨rom, t, d, Capabilities.parse d⟩ } }).reset := by
  rw [loadRom_eq]
  cases rom[0x147]? with
  | none => simp
  | some t =>
    dsimp only
    rw [Cartridge.make_eq]
    cases hl : Cartridge.kinds.lookup t <;> simp [hl, Except.map, eq_comm]

/-- A cartridge load that succeeds ends in a reset. -/
theorem loadCartridge_eq_ok_reset {c c' : Console σ} {rom : Array UInt8} {kind : UInt8}
    (h : c.loadCartridge rom kind = .ok c') : ∃ d : Console σ, c' = d.reset := by
  rw [loadCartridge_eq] at h
  cases hm : Cartridge.make rom kind with
  | error f => simp [hm, Except.map] at h
  | ok cart =>
    simp only [hm, Except.map, Except.ok.injEq] at h
    exact ⟨_, h.symm⟩

/-- So does a ROM load. -/
theorem loadRom_eq_ok_reset {c c' : Console σ} {rom : Array UInt8} (h : c.loadRom rom = .ok c') :
    ∃ d : Console σ, c' = d.reset := by
  obtain ⟨t, d, -, -, rfl⟩ := (loadRom_eq_ok_iff c rom c').1 h
  exact ⟨_, rfl⟩

end Console

/-- **Loading checks, then resets.** Loading a ROM image fails with
`EmptyRom` exactly when the image ends at or before the type byte at 0x147,
and with `UnsupportedCartridge t` exactly when that byte `t` is none of the
known types; it fails in no other way, and a failed load gives back no
console. A load that succeeds gives exactly the reset of the console with the
new cartridge, and the ROM window then holds the image's first
`min(len, 0x8000)` bytes followed by zeros. The bus's own load fails exactly
on an unknown type, leaving the bus as it was, and otherwise changes only the
ROM window, which shows the new image, and the cartridge. -/
theorem Console.load_checks_then_resets {σ : Type} (c : Console σ) (rom : Array UInt8) :
    (c.loadRom rom = .error .emptyRom ↔ rom.size ≤ 0x147) ∧
    (∀ t, c.loadRom rom = .error (.unsupportedCartridge t) ↔
      rom[0x147]? = some t ∧ t ∉ Cartridge.kinds.map Prod.fst) ∧
    (∀ f, c.loadRom rom = .error f → f = .emptyRom ∨ ∃ t, f = .unsupportedCartridge t) ∧
    (∀ c', c.loadRom rom = .ok c' ↔ ∃ t d, rom[0x147]? = some t ∧ Cartridge.kinds.lookup t = some d ∧
      c' = ({ c with bus := { c.bus with cartridge := some ⟨rom, t, d, Capabilities.parse d⟩ } }).reset) ∧
    (∀ c', c.loadRom rom = .ok c' → c'.bus.romWindow =
      rom.toList.take (min rom.size 0x8000) ++ List.replicate (0x8000 - min rom.size 0x8000) 0) ∧
    (∀ (b : Bus) (kind : UInt8),
      (b.loadCartridge rom kind = .error (.unsupportedCartridge kind) ↔
        kind ∉ Cartridge.kinds.map Prod.fst) ∧
      (∀ f, b.loadCartridge rom kind = .error f → (Bus.Op.loadCartridge rom kind).apply b = b) ∧
      ∀ b', b.loadCartridge rom kind = .ok b' →
        b'.model = b.model ∧ (∀ x : UInt16, 0x8000 ≤ x.toNat → b'.readByte x = b.readByte x) ∧
        b'.romWindow =
          rom.toList.take (min rom.size 0x8000) ++ List.replicate (0x8000 - min rom.size 0x8000) 0) := by
  refine ⟨?_, fun t => ?_, fun f hf => ?_, Console.loadRom_eq_ok_iff c rom, fun c' hc' => ?_,
    fun b kind => ⟨?_, fun f hf => by simp only [Bus.Op.apply, hf], fun b' hb' => ?_⟩⟩
  · simp [Console.loadRom_eq_error_iff]
  · simp [Console.loadRom_eq_error_iff]
  · rcases (Console.loadRom_eq_error_iff c rom f).1 hf with ⟨-, rfl⟩ | ⟨t, -, -, rfl⟩
    · exact .inl rfl
    · exact .inr ⟨t, rfl⟩
  · -- the console is reset with the new cartridge, which the reset maps
    obtain ⟨t, d, -, -, rfl⟩ := (Console.loadRom_eq_ok_iff c rom c').1 hc'
    rw [Console.reset, Bus.romWindow_reset]
    rfl
  · rw [Bus.loadCartridge_eq, Cartridge.make_eq, ← Cartridge.lookup_kinds_eq_none_iff]
    cases Cartridge.kinds.lookup kind <;> simp [Except.map]
  · obtain ⟨cart, hmake, rfl⟩ := Bus.loadCartridge_eq_ok.1 hb'
    rw [Cartridge.make_eq] at hmake
    refine ⟨rfl, fun x hx => Bus.readByte_loadCartridge_high hb' hx, ?_⟩
    rw [Bus.romWindow_eq (Bus.romMapped_loadCartridge hb')]
    -- the cartridge made is the image with its type's description
    cases hd : Cartridge.kinds.lookup kind with
    | none => simp [hd] at hmake
    | some d =>
      simp only [hd, Except.ok.injEq] at hmake
      subst hmake
      rfl

/-- An image whose type byte is 0xAA, which is no known type, is refused
with that byte. -/
theorem Console.load_refuses_unknown_type :
    (Array.replicate 0x200 (0xAA : UInt8))[0x147]? = some 0xAA ∧
      (0xAA : UInt8) ∉ Cartridge.kinds.map Prod.fst ∧
      (Console.new Config.standard ()).loadRom (Array.replicate 0x200 0xAA) =
        .error (.unsupportedCartridge 0xAA) :=
  have hbyte : (Array.replicate 0x200 (0xAA : UInt8))[0x147]? = some 0xAA := by simp
  have hkind : (0xAA : UInt8) ∉ Cartridge.kinds.map Prod.fst := by simp [Cartridge.kinds]
  ⟨hbyte, hkind,
    ((Console.load_checks_then_resets (Console.new Config.standard ()) _).2.1 0xAA).2 ⟨hbyte, hkind⟩⟩

end Dmg
