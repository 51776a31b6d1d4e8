import Mathlib.Data.List.Basic
import Mathlib.Algebra.Group.Nat.Defs
import Dmg.Memory.Bus
/-!
# Range checks and memory dumps

An access of `len` bytes at `addr` is inside the 64 KiB space exactly when
`addr + len ≤ 0x10000`, the sum taken without wrapping. A dump of such a range
is text that gives the bytes back: `Dump.read` reads a dump, each row ended by
a newline and made of the row's address in four uppercase hexadecimal digits, a
colon, and ` XX` for each of its bytes, and `Bus.dump_reads_back` says that
reading the dump of `len` bytes at `addr` finds `⌈len / 16⌉` rows, row `i` at
address `addr + 16 i` with the bytes from there up to the next row or the end of
the range, and so all the bytes of the range, in order.

The reader is written on its own, from the format, and not from the printer:
`Hex.value?` reads uppercase digits (and only those), and a row is read from its
characters.

Key definitions: `Hex.value?`, `Dump.readRow`, `Dump.read`.
Key theorems: `Hex.value?_pad`, `Hex.length_pad`, `Dump.readRow_rowChars`,
`Dump.splitOn_lines`, `Bus.read_dump`, `Bus.dump_reads_back`.
-/

namespace Dmg

/-! ### Reading hexadecimal digits -/

namespace Hex

/-- The value of an uppercase hexadecimal digit; `none` for any other
character, lowercase letters included. -/
def digitValue? (c : Char) : Option Nat :=
  if '0' ≤ c ∧ c ≤ '9' then some (c.toNat - 48)
  else if 'A' ≤ c ∧ c ≤ 'F' then some (c.toNat - 55)
  else none

/-- Take one more digit into a number read so far. -/
def pushDigit (acc : Option Nat) (c : Char) : Option Nat :=
  acc.bind fun v => (digitValue? c).map (16 * v + ·)

/-- The number a string of uppercase hexadecimal digits spells, most
significant first; `none` if a character is not such a digit. -/
def value? (cs : List Char) : Option Nat := cs.foldl pushDigit (some 0)

/-- Each of the sixteen digits reads as its value. -/
theorem digitValue?_digit : ∀ d < 16, digitValue? (digit d) = some d := by decide

/-- No digit is a newline, a blank or a colon. -/
theorem digit_ne : ∀ d < 16, digit d ≠ '\n' ∧ digit d ≠ ' ' ∧ digit d ≠ ':' := by decide

theorem value?_append_digit (cs : List Char) {d : Nat} (hd : d < 16) :
    value? (cs ++ [digit d]) = (value? cs).map (16 * · + d) := by
  rw [value?, List.foldl_append, ← value?]
  cases value? cs <;> simp [pushDigit, digitValue?_digit d hd]

/-- The digits of `n` read as `n`; the recursion is the one that writes them,
the last digit being `n % 16`. -/
theorem value?_digits (n : Nat) : value? (digits n) = some n := by
  fun_induction digits n with
  | case1 n h =>
    have hone := value?_append_digit [] h
    rw [List.nil_append] at hone
    rw [hone]
    simp [value?]
  | case2 n h ih =>
    rw [value?_append_digit _ (Nat.mod_lt n (by omega)), ih]
    simp only [Option.map_some]
    congr 1
    omega

/-- Leading zeros do not change the value. -/
theorem value?_zeros_append (k : Nat) (cs : List Char) :
    value? (List.replicate k '0' ++ cs) = value? cs := by
  have hzero : (List.replicate k '0').foldl pushDigit (some 0) = some 0 := by
    induction k with
    | zero => rfl
    | succ k ih => rw [List.replicate_succ', List.foldl_append, ih]; rfl
  rw [value?, List.foldl_append, hzero, ← value?]

/-- A number below `16 ^ w` has at most `w` digits. -/
theorem length_digits_le {n w : Nat} (hw : 0 < w) (h : n < 16 ^ w) : (digits n).length ≤ w := by
  fun_induction digits n generalizing w with
  | case1 n hn => simpa using Nat.one_le_iff_ne_zero.2 (Nat.pos_iff_ne_zero.1 hw)
  | case2 n hn ih =>
    rw [List.length_append, List.length_singleton]
    -- a number of two digits or more needs a width of two or more
    have hw1 : 1 < w := by
      rcases Nat.lt_or_ge 1 w with hlt | hle
      · exact hlt
      · rw [show w = 1 by omega, Nat.pow_one] at h
        exact absurd h hn
    have hpow : 16 ^ w = 16 ^ (w - 1) * 16 := by
      rw [← Nat.pow_succ]
      congr 1
      omega
    have := ih (w := w - 1) (by omega) (by rw [Nat.div_lt_iff_lt_mul (by omega), ← hpow]; exact h)
    omega

theorem toList_pad (w n : Nat) :
    (pad w n).toList = List.replicate (w - (digits n).length) '0' ++ digits n := by
  rw [pad, String.toList_ofList]

/-- A padded number reads back as the number. -/
theorem value?_pad (w n : Nat) : value? (pad w n).toList = some n := by
  rw [toList_pad, value?_zeros_append, value?_digits]

/-- A number below `16 ^ w` pads to exactly `w` digits. -/
theorem length_pad {w n : Nat} (hw : 0 < w) (h : n < 16 ^ w) : (pad w n).toList.length = w := by
  have := length_digits_le hw h
  rw [toList_pad, List.length_append, List.length_replicate]
  omega

theorem mem_digits {n : Nat} {c : Char} (hc : c ∈ digits n) : ∃ d < 16, digit d = c := by
  fun_induction digits n with
  | case1 n h => exact ⟨n, h, (List.mem_singleton.1 hc).symm⟩
  | case2 n h ih =>
    rcases List.mem_append.1 hc with hc | hc
    · exact ih hc
    · exact ⟨n % 16, Nat.mod_lt n (by omega), (List.mem_singleton.1 hc).symm⟩

/-- A padded number is made of digits only. -/
theorem mem_pad {w n : Nat} {c : Char} (hc : c ∈ (pad w n).toList) : ∃ d < 16, digit d = c := by
  rw [toList_pad] at hc
  rcases List.mem_append.1 hc with hc | hc
  · exact ⟨0, by omega, (List.eq_of_mem_replicate hc).symm⟩
  · exact mem_digits hc

end Hex

/-! ### Reading a dump -/

namespace Dump

/-- The bytes of a row after its address: ` XX` for each byte, two uppercase
hexadecimal digits, to the end of the row. -/
def readBytes : List Char → Option (List UInt8)
  | [] => some []
  | ' ' :: h :: l :: rest => do
    let v ← Hex.value? [h, l]
    let bs ← readBytes rest
    return UInt8.ofNat v :: bs
  | _ => none

/-- A row without its newline: the address in four uppercase hexadecimal
digits, a colon, then the bytes. -/
def readRow (cs : List Char) : Option (Nat × List UInt8) :=
  match cs.drop 4 with
  | ':' :: rest => do
    let a ← Hex.value? (cs.take 4)
    let bs ← readBytes rest
    return (a, bs)
  | _ => none

/-- A dump: rows, each ended by a newline. -/
def read (s : String) : Option (List (Nat × List UInt8)) :=
  match (s.toList.splitOn '\n').reverse with
  | [] :: rows => rows.reverse.mapM readRow
  | _ => none

/-- The characters of the bytes of a row, as a dump row writes them. -/
def bytesChars (bs : List UInt8) : List Char :=
  (bs.map fun b => " " ++ Hex.pad 2 b.toNat).flatMap String.toList

/-- The characters of a dump row without its newline. -/
def rowChars (start : Nat) (bs : List UInt8) : List Char :=
  (Hex.pad 4 start).toList ++ ':' :: bytesChars bs

theorem readBytes_bytesChars (bs : List UInt8) : readBytes (bytesChars bs) = some bs := by
  induction bs with
  | nil => rfl
  | cons b bs ih =>
    -- a byte is written as exactly two digits, which read back as the byte
    obtain ⟨h, l, hhl⟩ := List.length_eq_two.1 (Hex.length_pad (w := 2) (n := b.toNat) (by omega)
      (by have := b.toNat_lt; omega))
    have hv : Hex.value? [h, l] = some b.toNat := hhl ▸ Hex.value?_pad 2 b.toNat
    have hcons : bytesChars (b :: bs) = ' ' :: h :: l :: bytesChars bs := by
      simp only [bytesChars, List.map_cons, List.flatMap_cons, String.toList_append, hhl]
      rfl
    rw [hcons, readBytes, hv, ih]
    simp

/-- A row reads back as its address and bytes, for an address of four digits. -/
theorem readRow_rowChars {start : Nat} (h : start < 0x10000) (bs : List UInt8) :
    readRow (rowChars start bs) = some (start, bs) := by
  have hlen : (Hex.pad 4 start).toList.length = 4 := Hex.length_pad (by omega) h
  rw [readRow, rowChars, List.drop_left' hlen, List.take_left' hlen, Hex.value?_pad]
  simp [readBytes_bytesChars]

/-- No row has a newline of its own. -/
theorem newline_not_mem_rowChars (start : Nat) (bs : List UInt8) : '\n' ∉ rowChars start bs := by
  have hpad : ∀ {w n : Nat}, '\n' ∉ (Hex.pad w n).toList := fun hc => by
    obtain ⟨d, hd, he⟩ := Hex.mem_pad hc
    exact (Hex.digit_ne d hd).1 he
  simp only [rowChars, bytesChars, List.mem_append, List.mem_cons, List.mem_flatMap, List.mem_map,
    not_or]
  refine ⟨hpad, by decide, ?_⟩
  rintro ⟨_, ⟨b, -, rfl⟩, hc⟩
  rw [String.toList_append] at hc
  rcases List.mem_append.1 hc with hc | hc
  · exact absurd (List.mem_singleton.1 hc) (by decide)
  · exact hpad hc

/-- Lines each ended by a newline split back into the lines, and the empty
piece after the last newline. -/
theorem splitOn_lines (ls : List (List Char)) (h : ∀ l ∈ ls, '\n' ∉ l) :
    (ls.flatMap (· ++ ['\n'])).splitOn '\n' = ls ++ [[]] := by
  induction ls with
  | nil => rfl
  | cons l ls ih =>
    rw [List.flatMap_cons, List.append_assoc, List.singleton_append, List.splitOn_append_cons_self,
      List.splitOn_eq_singleton (h l List.mem_cons_self),
      ih fun l' hl' => h l' (List.mem_cons_of_mem l hl')]
    rfl

/-- A text made of newline-free lines, each ended by a newline, reads as its
lines read as rows. -/
theorem read_of_lines {s : String} {ls : List (List Char)} (hs : s.toList = ls.flatMap (· ++ ['\n']))
    (h : ∀ l ∈ ls, '\n' ∉ l) : read s = ls.mapM readRow := by
  rw [read, hs, splitOn_lines ls h, List.reverse_append]
  simp

/-- A text of newline-ended lines has as many newlines as lines. -/
theorem count_newline_lines (ls : List (List Char)) (h : ∀ l ∈ ls, '\n' ∉ l) :
    (ls.flatMap (· ++ ['\n'])).count '\n' = ls.length := by
  induction ls with
  | nil => rfl
  | cons l ls ih =>
    rw [List.flatMap_cons, List.count_append, List.count_append, ih fun l' hl' => h l' (List.mem_cons_of_mem l hl'),
      List.count_eq_zero_of_not_mem (h l List.mem_cons_self), List.count_singleton_self,
      List.length_cons]
    omega

theorem mapM_eq_some {α β : Type} {f : α → Option β} {g : α → β} :
    ∀ {l : List α}, (∀ x ∈ l, f x = some (g x)) → l.mapM f = some (l.map g)
  | [], _ => rfl
  | x :: l, h => by
    rw [List.mapM_cons, h x List.mem_cons_self, mapM_eq_some fun y hy => h y (List.mem_cons_of_mem x hy)]
    rfl

end Dump

/-! ### Slices of memory -/

/-- Consecutive slices of a list join into one. -/
theorem List.extract_append_extract {α : Type} (l : List α) {a m c : Nat} (h1 : a ≤ m) (h2 : m ≤ c) :
    l.extract a m ++ l.extract m c = l.extract a c := by
  simp only [List.extract_eq_take_drop]
  rw [show c - a = (m - a) + (c - m) by omega, List.take_add, List.drop_drop, Nat.add_sub_cancel' h1]

/-- The slices of the rows join into the slice of the range: rows of sixteen
from `a`, the last cut short at `b`. The induction adds one row at a time. -/
theorem List.flatten_extract_rows {α : Type} (l : List α) {a b : Nat} (hab : a ≤ b) (n : Nat) :
    ((List.range n).map fun i => l.extract (a + 16 * i) (min (a + 16 * i + 16) b)).flatten =
      l.extract a (min (a + 16 * n) b) := by
  induction n with
  | zero => simp [Nat.min_eq_left hab]
  | succ n ih =>
    rw [List.range_succ, List.map_append, List.flatten_append, ih, List.map_singleton,
      List.flatten_singleton]
    rcases Nat.lt_or_ge (a + 16 * n) b with hlt | hge
    · rw [Nat.min_eq_left (Nat.le_of_lt hlt), List.extract_append_extract l (by omega) (by omega),
        Nat.mul_succ, Nat.add_assoc]
    · -- past the end of the range a row is empty
      rw [Nat.min_eq_right hge, Nat.min_eq_right (by omega : b ≤ a + 16 * n + 16),
        Nat.min_eq_right (by omega : b ≤ a + 16 * (n + 1))]
      simp [Nat.sub_eq_zero_of_le hge]

namespace Bus

/-- `count` bytes read from `start` on, as a dump row reads them. -/
def bytesAt (bus : Bus) (start count : Nat) : List UInt8 :=
  (List.range count).map fun j => bus.byteAt (start + j)

/-- Inside the space, the bytes a row reads are the slice of memory. -/
theorem bytesAt_eq_extract (bus : Bus) {start count : Nat} (h : start + count ≤ 0x10000) :
    bus.bytesAt start count = bus.memory.toList.extract start (start + count) := by
  apply List.ext_getElem
  · simp [bytesAt]
    omega
  · intro j h1 h2
    simp only [bytesAt, List.length_map, List.length_range] at h1
    simp only [bytesAt, byteAt, List.getElem_map, List.getElem_range, List.extract_eq_take_drop,
      List.getElem_take, List.getElem_drop, Vector.getElem_toList]
    rw [Vector.getElem?_eq_getElem (by omega)]
    rfl

theorem toList_dumpRow (bus : Bus) (start count : Nat) :
    (bus.dumpRow start count).toList = Dump.rowChars start (bus.bytesAt start count) ++ ['\n'] := by
  simp only [dumpRow, Dump.rowChars, Dump.bytesChars, bytesAt, String.toList_append,
    String.toList_join, List.map_map, List.append_assoc]
  rfl

/-- An access is inside the space exactly when it ends by 0x10000. -/
theorem checkRange_eq_ok_iff (a n : Nat) : checkRange a n = .ok () ↔ a + n ≤ 0x10000 := by
  unfold checkRange
  split_ifs with h <;> simp [h]

/-- Inside the space, a dump is its rows, sixteen bytes to a row. -/
theorem dump_eq_ok (bus : Bus) {addr : UInt16} {len : Nat} (h : addr.toNat + len ≤ 0x10000) :
    bus.dump addr len = .ok (String.join ((List.range ((len + 15) / 16)).map fun r =>
      bus.dumpRow (addr.toNat + 16 * r) (min 16 (len - 16 * r)))) := by
  rw [dump, checkRange, if_pos h]
  rfl

/-- Outside the space, a dump fails with the range it was asked for. -/
theorem dump_eq_error (bus : Bus) {addr : UInt16} {len : Nat} (h : 0x10000 < addr.toNat + len) :
    bus.dump addr len = .error (.addressOutOfRange addr.toNat len) := by
  rw [dump, checkRange, if_neg (by omega)]
  rfl

/-- The rows a dump of `len` bytes at `addr` holds: row `i` starts at
`addr + 16 i` and holds the bytes from there to the next row or the end of the
range. -/
def dumpRows (bus : Bus) (addr : UInt16) (len : Nat) : List (Nat × List UInt8) :=
  (List.range ((len + 15) / 16)).map fun i =>
    (addr.toNat + 16 * i,
      bus.memory.toList.extract (addr.toNat + 16 * i) (min (addr.toNat + 16 * i + 16) (addr.toNat + len)))

/-- The text of a dump inside the space is its rows, each ended by a newline:
row `r`'s characters are its address and its slice of memory. -/
theorem toList_dump (bus : Bus) {addr : UInt16} {len : Nat} (h : addr.toNat + len ≤ 0x10000)
    {s : String} (hs : bus.dump addr len = .ok s) :
    s.toList = ((bus.dumpRows addr len).map fun row => Dump.rowChars row.1 row.2).flatMap (· ++ ['\n']) := by
  rw [dump_eq_ok bus h, Except.ok.injEq] at hs
  subst hs
  rw [String.toList_join, List.flatMap_map, dumpRows, List.map_map, List.flatMap_map, List.flatMap_def,
    List.flatMap_def]
  refine congrArg List.flatten (List.map_congr_left fun r hr => ?_)
  have hr' : 16 * r < len := by
    have := List.mem_range.1 hr
    omega
  rw [Function.comp_apply, toList_dumpRow, bytesAt_eq_extract bus (by omega)]
  congr 3
  omega

/-- The lines of a dump, newlines apart, have no newline. -/
theorem newline_not_mem_dumpLines (bus : Bus) (addr : UInt16) (len : Nat) :
    ∀ l ∈ (bus.dumpRows addr len).map (fun row => Dump.rowChars row.1 row.2), '\n' ∉ l := by
  simp only [List.mem_map]
  rintro _ ⟨row, -, rfl⟩
  exact Dump.newline_not_mem_rowChars _ _

/-- A dump that succeeds was inside the space. -/
theorem inside_of_dump_eq_ok (bus : Bus) {addr : UInt16} {len : Nat} {s : String}
    (hs : bus.dump addr len = .ok s) : addr.toNat + len ≤ 0x10000 := by
  rcases Nat.lt_or_ge 0x10000 (addr.toNat + len) with hout | hin
  · rw [dump_eq_error bus hout] at hs
    cases hs
  · exact hin

/-- Reading a dump inside the space gives its rows back. -/
theorem read_dump (bus : Bus) {addr : UInt16} {len : Nat} (h : addr.toNat + len ≤ 0x10000)
    {s : String} (hs : bus.dump addr len = .ok s) : Dump.read s = some (bus.dumpRows addr len) := by
  rw [Dump.read_of_lines (toList_dump bus h hs) (newline_not_mem_dumpLines bus addr len),
    List.mapM_map]
  refine (Dump.mapM_eq_some (g := id) fun row hrow => ?_).trans (by rw [List.map_id])
  obtain ⟨i, hi, rfl⟩ := List.mem_map.1 hrow
  have := List.mem_range.1 hi
  exact Dump.readRow_rowChars (by omega) _

/-- The rows of a dump hold the bytes of the range, in order. -/
theorem flatten_dumpRows (bus : Bus) {addr : UInt16} {len : Nat} :
    ((bus.dumpRows addr len).map Prod.snd).flatten =
      bus.memory.toList.extract addr.toNat (addr.toNat + len) := by
  simp only [dumpRows, List.map_map, Function.comp_def]
  rw [List.flatten_extract_rows _ (by omega), Nat.min_eq_right (by omega)]

/-- **The range check never wraps, and the hex dump is faithful.** An access is
inside the space exactly when `addr + len ≤ 0x10000`, and so is a dump; the
dump is then `⌈len / 16⌉` newline-ended rows, row `i` holding the address
`addr + 16 i` in four digits and the bytes from there to the next row or the
end of the range, so reading the rows in order gives the bytes of the range. -/
theorem dump_reads_back (bus : Bus) (addr : UInt16) (len : Nat) :
    (∀ a n : Nat, checkRange a n = .ok () ↔ a + n ≤ 0x10000) ∧
    ((∃ s, bus.dump addr len = .ok s) ↔ addr.toNat + len ≤ 0x10000) ∧
    (0x10000 < addr.toNat + len → bus.dump addr len = .error (.addressOutOfRange addr.toNat len)) ∧
    ∀ s, bus.dump addr len = .ok s →
      s.toList.count '\n' = (len + 15) / 16 ∧
      Dump.read s = some ((List.range ((len + 15) / 16)).map fun i =>
        (addr.toNat + 16 * i,
          bus.memory.toList.extract (addr.toNat + 16 * i)
            (min (addr.toNat + 16 * i + 16) (addr.toNat + len)))) ∧
      (Dump.read s).map (fun rows => (rows.map Prod.snd).flatten) =
        some (bus.memory.toList.extract addr.toNat (addr.toNat + len)) := by
  refine ⟨checkRange_eq_ok_iff,
    ⟨fun ⟨_, hs⟩ => inside_of_dump_eq_ok bus hs, fun h => ⟨_, dump_eq_ok bus h⟩⟩,
    dump_eq_error bus, fun s hs => ?_⟩
  have h := inside_of_dump_eq_ok bus hs
  refine ⟨?_, read_dump bus h hs, by rw [read_dump bus h hs, Option.map_some, flatten_dumpRows]⟩
  -- one newline ends each row
  rw [toList_dump bus h hs, Dump.count_newline_lines _ (newline_not_mem_dumpLines bus addr len),
    List.length_map, dumpRows, List.length_map, List.length_range]

/-- The last sixteen bytes of a fresh bus dump as one row; one byte more runs
past the top and is refused. -/
theorem dump_top_row :
    (∃ s, (Bus.new .dmg).dump 0xFFF0 16 = .ok s ∧ s.toList.count '\n' = 1) ∧
    (Bus.new .dmg).dump 0xFFF0 17 = .error (.addressOutOfRange 0xFFF0 17) := by
  obtain ⟨-, hok, -, hrows⟩ := dump_reads_back (Bus.new .dmg) 0xFFF0 16
  obtain ⟨s, hs⟩ := hok.2 (by decide)
  exact ⟨⟨s, hs, (hrows s hs).1⟩, (dump_reads_back (Bus.new .dmg) 0xFFF0 17).2.2.1 (by decide)⟩

end Bus
end Dmg
