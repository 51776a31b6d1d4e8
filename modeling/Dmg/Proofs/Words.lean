import Dmg.Proofs.Stack
/-!
# Word accesses on the bus

A word access at `a` is two byte accesses, at `a` and then at `a + 1`, the
word's bytes taken in the access's byte order (`Endian.bytes`). It is refused
at 0xFFFF, where the second byte would lie past the end of the address space,
with `Fault.addressOutOfRange 0xFFFF 2`, and there the bus is left as it was.

Above the ROM window a word reads back as it was written, in the same byte
order, and with its bytes swapped in the other (`swapBytes`): the second
byte's write, echo included, never lands on the first byte. Inside the ROM
window both byte writes are ignored, so a word written at 0x7FFF changes only
the byte at 0x8000, and one written lower changes nothing.

Key definitions: `Endian.bytes`, `Endian.flip`, `swapBytes`.
Key theorems: `Bus.readWord_eq`, `Bus.writeWord_eq`, `Bus.loadWord_storeWord_of_high`,
`Bus.storeWord_rom`, `Bus.word_access_round_trip`.
-/

namespace Dmg

/-- The bytes of `v` in memory order: the first at the word's address, the
second after it. -/
def Endian.bytes : Endian → UInt16 → UInt8 × UInt8
  | .little, v => (loByte v, hiByte v)
  | .big, v => (hiByte v, loByte v)

/-- The other byte order. -/
def Endian.flip : Endian → Endian
  | .little => .big
  | .big => .little

/-- The word with its two bytes exchanged. -/
def swapBytes (v : UInt16) : UInt16 := word (loByte v) (hiByte v)

namespace Bus

/-! ### Failing at the top of memory -/

/-- A word read is refused exactly at 0xFFFF, and otherwise reads the two
bytes. -/
theorem readWord_eq (b : Bus) (a : UInt16) (e : Endian) :
    b.readWord a e =
      if a = 0xFFFF then .error (.addressOutOfRange a.toNat 2) else .ok (b.loadWord a e) := by
  unfold readWord
  rw [Exec.checkRange_two]
  by_cases h : a = 0xFFFF
  · subst h; rfl
  · simp only [h, if_false]; rfl

/-- A word is written as its first byte at `a`, then its second at `a + 1`. -/
theorem storeWord_bytes (b : Bus) (a v : UInt16) (e : Endian) :
    b.storeWord a v e = (b.writeByte a (e.bytes v).1).writeByte (a + 1) (e.bytes v).2 := by
  cases e <;> rfl

/-- A word write is refused exactly at 0xFFFF, and otherwise is its two byte
writes. -/
theorem writeWord_eq (b : Bus) (a v : UInt16) (e : Endian) :
    b.writeWord a v e =
      if a = 0xFFFF then .error (.addressOutOfRange a.toNat 2)
      else .ok ((b.writeByte a (e.bytes v).1).writeByte (a + 1) (e.bytes v).2) := by
  unfold writeWord
  rw [Exec.checkRange_two, ← storeWord_bytes]
  by_cases h : a = 0xFFFF
  · subst h; rfl
  · simp only [h, if_false]; rfl

/-- A refused word write leaves the bus as it was. -/
theorem apply_writeWord_top (b : Bus) (v : UInt16) (e : Endian) :
    (Op.writeWord 0xFFFF v e).apply b = b := by
  simp only [Op.apply, writeWord_eq, if_true]

/-! ### Reading back -/

/-- The bytes of a word above the ROM window read back from where they were
written. -/
theorem readByte_storeWord_self {a : UInt16} (b : Bus) (v : UInt16) (e : Endian)
    (h₀ : 0x8000 ≤ a.toNat) (h₁ : a ≠ 0xFFFF) :
    (b.storeWord a v e).readByte a = (e.bytes v).1 ∧
      (b.storeWord a v e).readByte (a + 1) = (e.bytes v).2 := by
  have hlt : a.toNat < 0xFFFF := by
    have := a.toNat_lt
    have : a.toNat ≠ 0xFFFF := fun h => h₁ (UInt16.toNat_inj.1 h)
    omega
  have hnext := toNat_add_one hlt
  -- the second byte's write stores at `a + 1` and its echo partner, never at `a`
  have hsep : ¬ Stores (a + 1) a.toNat := by
    simp only [Stores, echoOf?_map_toNat, hnext]
    split_ifs <;> simp <;> omega
  rw [storeWord_bytes]
  refine ⟨?_, readByte_writeByte_self _ _ (by omega)⟩
  rw [readByte_writeByte_of_not_stores _ _ hsep]
  exact readByte_writeByte_self _ _ h₀

/-- A word above the ROM window reads back in the byte order it was written
in, and with its bytes swapped in the other. -/
theorem loadWord_storeWord_of_high {a : UInt16} (b : Bus) (v : UInt16) (e : Endian)
    (h₀ : 0x8000 ≤ a.toNat) (h₁ : a ≠ 0xFFFF) :
    (b.storeWord a v e).loadWord a e = v ∧ (b.storeWord a v e).loadWord a e.flip = swapBytes v := by
  obtain ⟨hfirst, hsecond⟩ := readByte_storeWord_self b v e h₀ h₁
  cases e <;> simp only [loadWord, Endian.flip, hfirst, hsecond, Endian.bytes, swapBytes,
    word_hiByte_loByte, and_self]

/-! ### Inside the ROM window -/

/-- A byte write into the ROM window is ignored. -/
theorem writeByte_of_lt {a : UInt16} (b : Bus) (v : UInt8) (h : a.toNat < 0x8000) :
    b.writeByte a v = b := by
  have : a < 0x8000 := UInt16.lt_iff_toNat_lt.2 h
  simp [writeByte, this]

/-- A word written in the ROM window changes nothing, unless it starts at
0x7FFF: then its second byte lands at 0x8000. -/
theorem storeWord_rom {a : UInt16} (b : Bus) (v : UInt16) (e : Endian) (h : a.toNat < 0x8000) :
    b.storeWord a v e = if a = 0x7FFF then b.writeByte 0x8000 (e.bytes v).2 else b := by
  rw [storeWord_bytes, writeByte_of_lt b _ h]
  by_cases h7 : a = 0x7FFF
  · subst h7; rfl
  · have ha : a.toNat ≠ 0x7FFF := fun h' => h7 (UInt16.toNat_inj.1 h')
    have hnext : (a + 1).toNat < 0x8000 := by rw [toNat_add_one (by omega)]; omega
    rw [if_neg h7, writeByte_of_lt b _ hnext]

/-- A write at 0x8000 changes no other byte: video RAM has no echo. -/
theorem readByte_writeByte_vram (b : Bus) (w : UInt8) {x : UInt16} (hx : x ≠ 0x8000) :
    (b.writeByte 0x8000 w).readByte x = b.readByte x := by
  apply readByte_writeByte_of_not_stores
  have hne : x.toNat ≠ 0x8000 := fun h => hx (UInt16.toNat_inj.1 h)
  simp only [Stores, echoOf?_map_toNat, UInt16.reduceToNat]
  simp [hne.symm]

end Bus

/-- **Word accesses.** A word read or write at `a` is refused with
`AddressOutOfRange a 2` exactly when `a` is 0xFFFF, a refused write leaving
the bus as it was; otherwise a write is the byte write of the word's first
byte at `a` followed by that of its second at `a + 1`. Hence from 0x8000 to
0xFFFE a word reads back in its byte order and swapped in the other, and
below 0x8000 a word write changes at most the byte at 0x8000, which it can
reach only from 0x7FFF. -/
theorem Bus.word_access_round_trip (b : Bus) (a v : UInt16) (e : Endian) :
    b.readWord a e =
      (if a = 0xFFFF then .error (.addressOutOfRange a.toNat 2) else .ok (b.loadWord a e)) ∧
    b.writeWord a v e =
      (if a = 0xFFFF then .error (.addressOutOfRange a.toNat 2)
        else .ok ((b.writeByte a (e.bytes v).1).writeByte (a + 1) (e.bytes v).2)) ∧
    (a = 0xFFFF → (Bus.Op.writeWord a v e).apply b = b) ∧
    (0x8000 ≤ a.toNat → a ≠ 0xFFFF → ∃ b', b.writeWord a v e = .ok b' ∧
      b'.readWord a e = .ok v ∧ b'.readWord a e.flip = .ok (swapBytes v)) ∧
    (a.toNat < 0x8000 → ∃ b', b.writeWord a v e = .ok b' ∧
      b' = (if a = 0x7FFF then b.writeByte 0x8000 (e.bytes v).2 else b) ∧
      ∀ x : UInt16, x ≠ 0x8000 → b'.readByte x = b.readByte x) := by
  refine ⟨Bus.readWord_eq b a e, Bus.writeWord_eq b a v e, fun h => h ▸ Bus.apply_writeWord_top b v e,
    fun h₀ h₁ => ?_, fun h => ?_⟩
  · -- the write goes through, and each byte order reads the two bytes back
    obtain ⟨hsame, hflip⟩ := Bus.loadWord_storeWord_of_high b v e h₀ h₁
    refine ⟨_, Bus.writeWord_eq_ok.2 ⟨h₁, rfl⟩, ?_, ?_⟩
    · rw [Bus.readWord_eq, if_neg h₁, hsame]
    · rw [Bus.readWord_eq, if_neg h₁, hflip]
  · have h₁ : a ≠ 0xFFFF := by
      rintro rfl
      simp at h
    refine ⟨_, Bus.writeWord_eq_ok.2 ⟨h₁, rfl⟩, Bus.storeWord_rom b v e h, fun x hx => ?_⟩
    rw [Bus.storeWord_rom b v e h]
    split
    · exact Bus.readByte_writeByte_vram b _ hx
    · rfl

/-- A word written little-endian at 0xC000 reads back big-endian with its bytes
swapped. -/
theorem Bus.word_swapped_in_work_ram :
    ∃ b', (Bus.new .dmg).writeWord 0xC000 0x1234 .little = .ok b' ∧
      b'.readWord 0xC000 .little = .ok 0x1234 ∧ b'.readWord 0xC000 .big = .ok 0x3412 := by
  obtain ⟨b', hw, hsame, hflip⟩ :=
    (Bus.word_access_round_trip (Bus.new .dmg) 0xC000 0x1234 .little).2.2.2.1 (by decide) (by decide)
  have hswap : swapBytes 0x1234 = 0x3412 := by decide
  exact ⟨b', hw, hsame, hswap ▸ hflip⟩

end Dmg
