import Dmg.Proofs.Stack
/-!
# Counting a register up and down by name

`Registers.inc` and `Registers.dec` count any register but F by one. A byte
register counts modulo 256 and takes the increment or decrement flag rule (Z, N
and H from the count, C kept); SP, PC, BC, DE and HL count modulo 65536 and
keep the flags. Every register that shares no bit with the one counted is left
as it was (for a byte register, also none sharing a bit with F, which holds the
new flags), and counting down undoes counting up.

AF is the exception among the wide registers. A write to AF keeps only the
high nibble of its low byte, so AF counts as `(AF ± 1) &&& 0xFFF0`. When the
low nibble of F is zero, as it is in every state the processor reaches
(`Dmg.Proofs.FlagNibble`), counting up changes nothing, counting down takes
0x10 away, and counting down after up does not give AF back.

The by-code forms name the register by its code: codes 0 to 13 count the
register with that code, and every other code fails with
`Fault.unknownRegister`.

Key definitions: `Reg.cells`, `Reg.Apart`.
Key theorems: `Registers.get_set_of_apart`, `Registers.inc_wide`,
`Registers.inc_byte`, `Registers.toNat_get_set_af`, `Reg.ofCode_eq_ok_iff`,
`Registers.count_by_name_and_code`.
-/

namespace Dmg

namespace Reg

/-- The storage a register name reads: its two halves for a pair, the register
itself otherwise. -/
def cells : Reg → List Reg
  | af => [a, f]
  | bc => [b, c]
  | de => [d, e]
  | hl => [h, l]
  | r => [r]

/-- Two register names share no bit. -/
def Apart (x y : Reg) : Prop := ∀ z ∈ x.cells, z ∉ y.cells

instance (x y : Reg) : Decidable (x.Apart y) := inferInstanceAs (Decidable (∀ z ∈ x.cells, z ∉ y.cells))

/-- No register is apart from itself. -/
theorem Apart.ne {x y : Reg} (h : x.Apart y) : x ≠ y := by
  rintro rfl
  cases x <;> exact absurd h (by decide)

/-- The register with a code is the one whose code it is. -/
theorem ofCode?_eq_some_iff (n : UInt8) (id : Reg) : ofCode? n = some id ↔ id.code = n := by
  have hcodes : ∀ k (hk : k < all.length), (all.get ⟨k, hk⟩).code.toNat = k := by decide
  constructor
  · intro h
    obtain ⟨hk, rfl⟩ := List.getElem?_eq_some_iff.1 h
    exact UInt8.toNat_inj.1 (hcodes _ hk)
  · rintro rfl
    exact ofCode_code id

/-- Exactly the codes from 14 on name no register. -/
theorem ofCode?_eq_none_iff (n : UInt8) : ofCode? n = none ↔ 14 ≤ n.toNat := by
  rw [ofCode?, List.getElem?_eq_none_iff]
  rfl

theorem forall_code_ne_iff (n : UInt8) : (∀ id : Reg, id.code ≠ n) ↔ 14 ≤ n.toNat := by
  rw [← ofCode?_eq_none_iff, Option.eq_none_iff_forall_ne_some]
  exact forall_congr' fun id => not_congr (ofCode?_eq_some_iff n id).symm

theorem ofCode_eq_ok_iff (n : UInt8) (id : Reg) : ofCode n = .ok id ↔ id.code = n := by
  rw [← ofCode?_eq_some_iff, ofCode]
  split <;> simp_all

theorem ofCode_eq_error_iff (n : UInt8) : ofCode n = .error (.unknownRegister n) ↔ 14 ≤ n.toNat := by
  rw [← ofCode?_eq_none_iff, ofCode]
  split <;> simp_all

end Reg

namespace Registers

variable (r : Registers)

/-! ### Writes, kind by kind -/

/-- A write leaves every register sharing no bit with the one written. The
cases are the pairs of names: where they share a cell `h` is false, and
elsewhere the read touches no field the write changes. -/
theorem get_set_of_apart {x y : Reg} (h : x.Apart y) (v : UInt16) : (r.set y v).get x = r.get x := by
  have hne := h.ne
  cases y <;> cases x <;> simp_all [Reg.Apart, Reg.cells, set, get, af, bc, de, hl, setF, setAf]

/-- New flags leave every register sharing no bit with F. -/
theorem get_writeFlags_of_apart {x : Reg} (h : x.Apart .f) (fl : Flags) :
    (r.writeFlags fl).get x = r.get x := by
  cases x <;> simp_all [Reg.Apart, Reg.cells, get, bc, de, hl, writeFlags]

/-- A byte register reads as a word below 256. -/
theorem get_byte {id : Reg} (hw : id.isWide = false) : r.get id = (loByte (r.get id)).toUInt16 := by
  cases id <;> simp_all [Reg.isWide, get, loByte]

/-- A byte register other than F keeps the low byte of what is written. -/
theorem get_set_byte {id : Reg} (hw : id.isWide = false) (hf : id ≠ .f) (v : UInt16) :
    (r.set id v).get id = (loByte v).toUInt16 := by
  cases id <;> simp_all [Reg.isWide, set, get]

theorem flags_set_byte {id : Reg} (hw : id.isWide = false) (hf : id ≠ .f) (v : UInt16) :
    (r.set id v).flags = r.flags := by
  cases id <;> simp_all [Reg.isWide, set, flags]

/-- A wide register other than AF keeps what is written. -/
theorem get_set_wide {id : Reg} (hw : id.isWide = true) (ha : id ≠ .af) (v : UInt16) :
    (r.set id v).get id = v := by
  cases id <;> simp_all [Reg.isWide, set, get, bc, de, hl, word_hiByte_loByte]

theorem flags_set_wide {id : Reg} (hw : id.isWide = true) (ha : id ≠ .af) (v : UInt16) :
    (r.set id v).flags = r.flags := by
  cases id <;> simp_all [Reg.isWide, set, flags]

/-! ### AF as a number -/

/-- Clearing the low nibble of a byte takes its value down to a multiple of 16. -/
theorem toNat_and_high_nibble : ∀ b : UInt8, (b &&& 0xF0).toNat = b.toNat - b.toNat % 16 := by
  rw [forall_uint8]
  decide +kernel

theorem toNat_word (hi lo : UInt8) : (word hi lo).toNat = hi.toNat * 256 + lo.toNat := by
  have hlo := lo.toNat_lt
  have hhi := hi.toNat_lt
  have h8 : (8 : UInt16).toNat % 16 = 8 := rfl
  have hsh : (hi.toUInt16 <<< 8).toNat = hi.toNat <<< 8 := by
    rw [UInt16.toNat_shiftLeft, UInt8.toNat_toUInt16, h8]
    exact Nat.mod_eq_of_lt (by rw [Nat.shiftLeft_eq]; omega)
  rw [word, UInt16.toNat_or, hsh, UInt8.toNat_toUInt16, ← Nat.shiftLeft_add_eq_or_of_lt hlo,
    Nat.shiftLeft_eq]

/-- A write to AF keeps the value with the low nibble cleared. -/
theorem get_set_af (v : UInt16) : (r.set .af v).get .af = v &&& 0xFFF0 := by
  simpa only [StackPair.reg, if_true] using get_set_stackPair r .af v

/-- The same, as a number. -/
theorem toNat_get_set_af (v : UInt16) : ((r.set .af v).get .af).toNat = v.toNat - v.toNat % 16 := by
  have hv := congrArg UInt16.toNat (word_hiByte_loByte v)
  rw [toNat_word] at hv
  rw [get_set_af, ← word_hiByte_loByte_and, toNat_word, toNat_and_high_nibble]
  omega

/-! ### Counting, kind by kind -/

/-- A wide register counts as a word. -/
theorem inc_wide {id : Reg} (hw : id.isWide = true) : r.inc id = r.set id (r.get id + 1) := by
  simp [inc, hw]

theorem dec_wide {id : Reg} (hw : id.isWide = true) : r.dec id = r.set id (r.get id - 1) := by
  simp [dec, hw]

/-- A byte register other than F counts its byte and takes the increment flag
rule. -/
theorem inc_byte {id : Reg} (hw : id.isWide = false) (hf : id ≠ .f) :
    r.inc id = (r.writeFlags (r.flags.afterInc (loByte (r.get id)))).set id (loByte (r.get id) + 1).toUInt16 := by
  simp [inc, inc8_eq, hw, hf]

theorem dec_byte {id : Reg} (hw : id.isWide = false) (hf : id ≠ .f) :
    r.dec id = (r.writeFlags (r.flags.afterDec (loByte (r.get id)))).set id (loByte (r.get id) - 1).toUInt16 := by
  simp [dec, dec8_eq, hw, hf]

/-- A byte register other than F counts modulo 256 with the flag rules. -/
theorem count_byte {id : Reg} (hw : id.isWide = false) (hf : id ≠ .f) :
    ((r.inc id).get id).toNat = ((r.get id).toNat + 1) % 2 ^ 8 ∧
      ((r.dec id).get id).toNat = ((r.get id).toNat + 2 ^ 8 - 1) % 2 ^ 8 ∧
      (r.inc id).flags = r.flags.afterInc (loByte (r.get id)) ∧
      (r.dec id).flags = r.flags.afterDec (loByte (r.get id)) := by
  have hv : (r.get id).toNat = (loByte (r.get id)).toNat := by
    conv => lhs; rw [get_byte r hw]
    exact UInt8.toNat_toUInt16 _
  rw [inc_byte r hw hf, dec_byte r hw hf, get_set_byte _ hw hf, get_set_byte _ hw hf,
    flags_set_byte _ hw hf, flags_set_byte _ hw hf, flags_writeFlags, flags_writeFlags]
  simp only [loByte, UInt8.toUInt8_toUInt16, UInt8.toNat_toUInt16, UInt8.toNat_add, UInt8.toNat_sub,
    UInt8.toNat_one, and_true]
  rw [← loByte, hv]
  constructor <;> omega

/-- A wide register other than AF counts modulo 65536 and keeps the flags. -/
theorem count_wide {id : Reg} (hw : id.isWide = true) (ha : id ≠ .af) :
    ((r.inc id).get id).toNat = ((r.get id).toNat + 1) % 2 ^ 16 ∧
      ((r.dec id).get id).toNat = ((r.get id).toNat + 2 ^ 16 - 1) % 2 ^ 16 ∧
      (r.inc id).flags = r.flags ∧ (r.dec id).flags = r.flags := by
  rw [inc_wide r hw, dec_wide r hw, get_set_wide _ hw ha, get_set_wide _ hw ha,
    flags_set_wide _ hw ha, flags_set_wide _ hw ha, UInt16.toNat_add, UInt16.toNat_sub]
  simp only [UInt16.toNat_one, true_and, and_true]
  omega

/-- A write to AF leaves the low nibble of F clear. -/
theorem low_set_af (v : UInt16) : (r.set .af v).f &&& 0x0F = 0 := by
  have hmask : (0xF0 &&& 0x0F : UInt8) = 0 := by decide
  simp only [set, setAf, setF, UInt8.and_assoc, hmask, UInt8.and_zero]

/-- AF counts as a word with the low nibble of F cleared. When that nibble is
already clear, counting up leaves AF as it was and counting down takes 0x10
away. -/
theorem count_af :
    (r.inc .af).get .af = (r.get .af + 1) &&& 0xFFF0 ∧
      (r.dec .af).get .af = (r.get .af - 1) &&& 0xFFF0 ∧
      (r.f &&& 0x0F = 0 → (r.inc .af).get .af = r.get .af ∧ (r.dec .af).get .af = r.get .af - 0x10) := by
  refine ⟨by rw [inc_wide r rfl, get_set_af], by rw [dec_wide r rfl, get_set_af], fun hf => ⟨?_, ?_⟩⟩
  -- F's low nibble is zero, so the count up is cleared away again and the
  -- count down borrows a whole 0x10
  all_goals
    have hlow : (r.get .af).toNat % 16 = 0 := by
      have h := congrArg UInt8.toNat hf
      rw [toNat_and_low, UInt8.toNat_zero] at h
      simp only [get, af, toNat_word]
      omega
    have hlt := (r.get .af).toNat_lt
  · apply UInt16.toNat.inj
    rw [inc_wide r rfl, toNat_get_set_af, UInt16.toNat_add, UInt16.toNat_one]
    omega
  · apply UInt16.toNat.inj
    rw [dec_wide r rfl, toNat_get_set_af, UInt16.toNat_sub, UInt16.toNat_sub, UInt16.toNat_one]
    simp only [show (0x10 : UInt16).toNat = 16 from rfl]
    omega

/-- Counting leaves every register that shares no bit with the one counted,
nor, for a byte register, with F. -/
theorem count_frame {id x : Reg} (hf : id ≠ .f) (hx : x.Apart id) (hxf : id.isWide = false → x.Apart .f) :
    (r.inc id).get x = r.get x ∧ (r.dec id).get x = r.get x := by
  cases hw : id.isWide with
  | true => rw [inc_wide r hw, dec_wide r hw, get_set_of_apart _ hx, get_set_of_apart _ hx]; simp
  | false =>
    rw [inc_byte r hw hf, dec_byte r hw hf, get_set_of_apart _ hx, get_set_of_apart _ hx]
    simp only [get_writeFlags_of_apart r (hxf hw), and_self]

/-- Counting down after counting up gives the register back, AF apart. -/
theorem get_dec_inc {id : Reg} (hf : id ≠ .f) (ha : id ≠ .af) : ((r.inc id).dec id).get id = r.get id := by
  cases hw : id.isWide with
  | true =>
    rw [dec_wide _ hw, get_set_wide _ hw ha, inc_wide r hw, get_set_wide _ hw ha, UInt16.add_sub_cancel]
  | false =>
    rw [dec_byte _ hw hf, get_set_byte _ hw hf, inc_byte r hw hf, get_set_byte _ hw hf]
    conv => rhs; rw [get_byte r hw]
    simp only [loByte, UInt8.toUInt8_toUInt16, UInt8.add_sub_cancel]

/-! ### By code -/

theorem incByCode_of_code {n : UInt8} {id : Reg} (h : id.code = n) :
    r.incByCode n = .ok ((r.inc id).get id, r.inc id) := by
  rw [incByCode, (Reg.ofCode_eq_ok_iff n id).2 h]
  rfl

theorem decByCode_of_code {n : UInt8} {id : Reg} (h : id.code = n) :
    r.decByCode n = .ok ((r.dec id).get id, r.dec id) := by
  rw [decByCode, (Reg.ofCode_eq_ok_iff n id).2 h]
  rfl

theorem incByCode_of_unknown {n : UInt8} (h : 14 ≤ n.toNat) :
    r.incByCode n = .error (.unknownRegister n) := by
  rw [incByCode, (Reg.ofCode_eq_error_iff n).2 h]
  rfl

theorem decByCode_of_unknown {n : UInt8} (h : 14 ≤ n.toNat) :
    r.decByCode n = .error (.unknownRegister n) := by
  rw [decByCode, (Reg.ofCode_eq_error_iff n).2 h]
  rfl

/-- **Counting a register by name or code.** A byte register other than F
counts modulo 256 with the flag rules, a wide register other than AF modulo
65536 with the flags kept; AF counts with the low nibble of F cleared, so up it
stays and down it loses 0x10 whenever the low nibble of F is clear.
Registers sharing no bit with the one counted (nor with F, for a byte
register) stay, and counting down undoes counting up, except on AF. Codes 0 to 13 count the register with that code and give its new
value; other codes fail with `Fault.unknownRegister`. -/
theorem count_by_name_and_code :
    (∀ id : Reg, id.isWide = false → id ≠ .f →
      ((r.inc id).get id).toNat = ((r.get id).toNat + 1) % 2 ^ 8 ∧
        ((r.dec id).get id).toNat = ((r.get id).toNat + 2 ^ 8 - 1) % 2 ^ 8 ∧
        (r.inc id).flags = r.flags.afterInc (loByte (r.get id)) ∧
        (r.dec id).flags = r.flags.afterDec (loByte (r.get id))) ∧
    (∀ id : Reg, id.isWide = true → id ≠ .af →
      ((r.inc id).get id).toNat = ((r.get id).toNat + 1) % 2 ^ 16 ∧
        ((r.dec id).get id).toNat = ((r.get id).toNat + 2 ^ 16 - 1) % 2 ^ 16 ∧
        (r.inc id).flags = r.flags ∧ (r.dec id).flags = r.flags) ∧
    ((r.inc .af).get .af = (r.get .af + 1) &&& 0xFFF0 ∧
      (r.dec .af).get .af = (r.get .af - 1) &&& 0xFFF0 ∧
      (r.f &&& 0x0F = 0 → (r.inc .af).get .af = r.get .af ∧ (r.dec .af).get .af = r.get .af - 0x10)) ∧
    (∀ id x : Reg, id ≠ .f → x.Apart id → (id.isWide = false → x.Apart .f) →
      (r.inc id).get x = r.get x ∧ (r.dec id).get x = r.get x) ∧
    (∀ id : Reg, id ≠ .f → id ≠ .af → ((r.inc id).dec id).get id = r.get id) ∧
    (r.f &&& 0x0F = 0 → ((r.inc .af).dec .af).get .af = r.get .af - 0x10) ∧
    (∀ (n : UInt8) (id : Reg), id.code = n →
      r.incByCode n = .ok ((r.inc id).get id, r.inc id) ∧
        r.decByCode n = .ok ((r.dec id).get id, r.dec id)) ∧
    (∀ n : UInt8, (∀ id : Reg, id.code ≠ n) ↔ 14 ≤ n.toNat) ∧
    (∀ n : UInt8, 14 ≤ n.toNat →
      r.incByCode n = .error (.unknownRegister n) ∧ r.decByCode n = .error (.unknownRegister n)) := by
  refine ⟨fun _ hw hf => count_byte r hw hf, fun _ hw ha => count_wide r hw ha, count_af r,
    fun _ _ hf hx hxf => count_frame r hf hx hxf, fun _ hf ha => get_dec_inc r hf ha, fun hf => ?_,
    fun _ _ h => ⟨incByCode_of_code r h, decByCode_of_code r h⟩, Reg.forall_code_ne_iff,
    fun _ h => ⟨incByCode_of_unknown r h, decByCode_of_unknown r h⟩⟩
  -- counting up writes AF, which clears F's low nibble whatever it was
  have hinc : (r.inc .af).f &&& 0x0F = 0 := by rw [inc_wide r rfl]; exact low_set_af r _
  rw [((count_af (r.inc .af)).2.2 hinc).2, ((count_af r).2.2 hf).1]

/-- From power-on, where F's low nibble is clear, counting AF down after
counting it up takes 0x10 away. -/
theorem powerOn_af_loses_sixteen :
    Registers.powerOn.f &&& 0x0F = 0 ∧
      ((Registers.powerOn.inc .af).dec .af).get .af = Registers.powerOn.get .af - 0x10 :=
  ⟨by decide, (count_by_name_and_code Registers.powerOn).2.2.2.2.2.1 (by decide)⟩

/-- From power-on, counting AF up leaves it at 0x01B0 instead of 0x01B1. -/
theorem inc_af_is_absorbed :
    (Registers.powerOn.inc .af).get .af = 0x01B0 ∧
      (Registers.powerOn.inc .af).get .af ≠ Registers.powerOn.get .af + 1 := by
  decide

end Registers
end Dmg
