import Mathlib.Tactic.SplitIfs
import Dmg.Memory.Bus
/-!
# The bus, one write at a time

A byte write outside the ROM window stores at its address and at the
address's echo partner, and nowhere else (`Bus.getElem_writeByte`); a word
write is two byte writes. Everything below follows from that one equation and
from what reset and loading a cartridge put in memory.

The bus's users change it only through its operations (`Bus.Op`): byte and
word writes in either byte order, loading a cartridge, reset and a change of
model, a failing operation leaving the bus as it was. A property that every
operation keeps (`Bus.Stable`) holds of every bus those operations reach
(`Bus.Reach`). Two such properties are the memory map's contracts:

* `Bus.EchoMirrored`: work RAM 0xC000 to 0xDDFF and the echo 0xE000 to
  0xFDFF hold the same bytes;
* `Bus.RomMapped`: the ROM window holds the loaded cartridge's image, zero
  past its end, or zeros when no cartridge is loaded; no write changes it.

Key definitions: `Bus.Stores`, `Bus.Op`, `Bus.runOps`, `Bus.Reach`,
`Bus.Stable`, `Bus.EchoMirrored`, `Bus.RomMapped`, `Bus.romWindow`,
`Cartridge.image`, `Bus.lastLoaded`.
Key theorems: `Bus.getElem_writeByte`, `Bus.Stable.of`, `Bus.Stable.reach`,
`Bus.echoMirrored_stable`, `Bus.romMapped_stable`, `Bus.romWindow_eq`,
`Bus.cartridge_runOps`.
-/

namespace Dmg

/-- The echo partner of an address, as a number. -/
theorem echoOf?_map_toNat (a : UInt16) : (echoOf? a).map UInt16.toNat =
    if 0xC000 ≤ a.toNat ∧ a.toNat < 0xDE00 then some (a.toNat + 0x2000)
    else if 0xE000 ≤ a.toNat ∧ a.toNat < 0xFE00 then some (a.toNat - 0x2000) else none := by
  simp only [echoOf?, UInt16.le_iff_toNat_le, UInt16.lt_iff_toNat_lt, UInt16.reduceToNat]
  split_ifs <;> simp [UInt16.toNat_add, UInt16.toNat_sub] <;> omega

/-- What a cartridge shows in the ROM window: the first `min(len, 0x8000)`
bytes of its image, then zeros up to 0x7FFF. -/
def Cartridge.image (c : Cartridge) : List UInt8 :=
  c.rom.toList.take c.mappedLen ++ List.replicate (0x8000 - c.mappedLen) 0

namespace Bus

/-! ### Reading after a write -/

theorem getElem_poke (m : Vector UInt8 0x10000) (a : UInt16) (v : UInt8) (i : Nat)
    (hi : i < 0x10000) : (poke m a v)[i] = if a.toNat = i then v else m[i] := by
  simp [poke, Vector.getElem_set]

/-- The addresses a byte write at `a` stores to when it stores at all: `a`
itself and its echo partner. -/
def Stores (a : UInt16) (i : Nat) : Prop := a.toNat = i ∨ (echoOf? a).map UInt16.toNat = some i

instance (a : UInt16) (i : Nat) : Decidable (Stores a i) := inferInstanceAs (Decidable (_ ∨ _))

/-- A byte write changes the bytes at `a` and at its echo partner, unless `a`
is in the ROM window, where it changes nothing. -/
theorem getElem_writeByte (b : Bus) (a : UInt16) (v : UInt8) (i : Nat) (hi : i < 0x10000) :
    (b.writeByte a v).memory[i] = if 0x8000 ≤ a.toNat ∧ Stores a i then v else b.memory[i] := by
  unfold writeByte
  by_cases hrom : a < 0x8000
  · have : ¬ 0x8000 ≤ a.toNat := by simpa [UInt16.lt_iff_toNat_lt] using hrom
    simp [hrom, this]
  · have hge : 0x8000 ≤ a.toNat := by simpa [UInt16.lt_iff_toNat_lt] using hrom
    simp only [hrom, if_false, hge, true_and, Stores]
    cases echoOf? a with
    | none => simp [getElem_poke]
    | some e =>
      simp only [getElem_poke, Option.map_some, Option.some.injEq]
      by_cases h1 : e.toNat = i <;> by_cases h2 : a.toNat = i <;> simp [h1, h2]

@[simp] theorem cartridge_writeByte (b : Bus) (a : UInt16) (v : UInt8) :
    (b.writeByte a v).cartridge = b.cartridge := by
  unfold writeByte; split <;> rfl

@[simp] theorem model_writeByte (b : Bus) (a : UInt16) (v : UInt8) :
    (b.writeByte a v).model = b.model := by
  unfold writeByte; split <;> rfl

/-- Work RAM below 0xDE00 and the echo are hit together: a write stores at
`0xC000 + k` exactly when it stores at `0xE000 + k`. -/
theorem stores_echo (a : UInt16) {k : Nat} (hk : k < 0x1E00) :
    Stores a (0xC000 + k) ↔ Stores a (0xE000 + k) := by
  simp only [Stores, echoOf?_map_toNat]
  split_ifs <;> simp <;> omega

/-- A write outside the ROM window stores nothing inside it. -/
theorem not_stores_rom {a : UInt16} (ha : 0x8000 ≤ a.toNat) {i : Nat} (hi : i < 0x8000) :
    ¬ Stores a i := by
  simp only [Stores, echoOf?_map_toNat]
  split_ifs <;> simp <;> omega

/-- A write above the ROM window reads back. -/
theorem readByte_writeByte_self (b : Bus) {a : UInt16} (v : UInt8) (h : 0x8000 ≤ a.toNat) :
    (b.writeByte a v).readByte a = v := by
  have hread := getElem_writeByte b a v a.toNat a.toNat_lt
  simp only [Stores, true_or, and_true, h, if_true] at hread
  exact hread

/-- A write to an I/O register changes no other byte: there is no echo partner
up there. -/
theorem readByte_writeByte_io (b : Bus) {a a' : UInt16} (v : UInt8) (ha : 0xFE00 ≤ a.toNat)
    (hne : a' ≠ a) : (b.writeByte a v).readByte a' = b.readByte a' := by
  have hecho : (echoOf? a).map UInt16.toNat = none := by
    rw [echoOf?_map_toNat, if_neg (by omega), if_neg (by omega)]
  have hstores : ¬ Stores a a'.toNat := by
    rintro (h | h)
    · exact hne (UInt16.toNat_inj.1 h).symm
    · rw [hecho] at h
      cases h
  have hread := getElem_writeByte b a v a'.toNat a'.toNat_lt
  rw [if_neg fun h => hstores h.2] at hread
  exact hread

/-- A byte write never changes the ROM window. -/
theorem writeByte_rom (b : Bus) (a : UInt16) (v : UInt8) {i : Nat} (hi : i < 0x8000) :
    (b.writeByte a v).memory[i] = b.memory[i] := by
  rw [getElem_writeByte]
  by_cases ha : 0x8000 ≤ a.toNat
  · simp [not_stores_rom ha hi]
  · simp [ha]

/-- A word is written as its two bytes, the first at `a` and the second at
`a + 1`, in the given byte order. -/
theorem storeWord_eq (b : Bus) (a v : UInt16) (e : Endian) :
    b.storeWord a v e =
      match e with
      | .little => (b.writeByte a (loByte v)).writeByte (a + 1) (hiByte v)
      | .big => (b.writeByte a (hiByte v)).writeByte (a + 1) (loByte v) := rfl

/-- A word write succeeds exactly below 0xFFFF, and then stores the word. -/
theorem writeWord_eq_ok {b b' : Bus} {a v : UInt16} {e : Endian} :
    b.writeWord a v e = .ok b' ↔ a ≠ 0xFFFF ∧ b' = b.storeWord a v e := by
  unfold writeWord checkRange
  by_cases h : a = 0xFFFF
  · subst h; simp [Functor.map, Except.map]
  · have hne : a.toNat ≠ 0xFFFF := fun h' => h (UInt16.toNat.inj h')
    have : a.toNat + 2 ≤ 0x10000 := by have := a.toNat_lt; omega
    simp [this, h, eq_comm, Functor.map, Except.map]

/-- Loading a cartridge succeeds exactly for a known type, and then maps its
image over the ROM window and keeps the rest of memory. -/
theorem loadCartridge_eq_ok {b b' : Bus} {rom : Array UInt8} {kind : UInt8} :
    b.loadCartridge rom kind = .ok b' ↔ ∃ c, Cartridge.make rom kind = .ok c ∧
      b' = { b with
        memory := Vector.ofFn fun i => if i.val < 0x8000 then c.windowByte i.val else b.memory.get i
        cartridge := some c } := by
  simp only [loadCartridge, bind, Except.bind, pure, Except.pure]
  cases Cartridge.make rom kind with
  | error e => simp
  | ok c => simp [eq_comm]

@[simp] theorem cartridge_reset (b : Bus) : b.reset.cartridge = b.cartridge := by unfold reset; rfl

@[simp] theorem model_reset (b : Bus) : b.reset.model = b.model := by unfold reset; rfl

/-- Power-on memory is zero from video RAM up to the I/O ports. -/
theorem powerOnByte_of_lt (m : Model) (cart : Option Cartridge) {i : Nat} (h1 : 0x8000 ≤ i)
    (h2 : i < 0xFF00) : powerOnByte m cart i = 0 := by
  simp [powerOnByte, Nat.not_lt.2 h1, h2]

/-- A fresh bus holds the power-on bytes. -/
theorem readByte_new (m : Model) (a : UInt16) :
    (Bus.new m).readByte a = powerOnByte m none a.toNat := by
  have ha := a.toNat_lt
  change (Bus.new m).memory[a.toNat] = _
  simp only [Bus.new, Vector.getElem_ofFn]

/-! ### Operations and the buses they reach -/

/-- An operation a user of the bus can perform. -/
inductive Op where
  | writeByte (a : UInt16) (v : UInt8)
  | writeWord (a v : UInt16) (e : Endian)
  | loadCartridge (rom : Array UInt8) (kind : UInt8)
  | reset
  | setModel (m : Model)

/-- Perform an operation. One that fails leaves the bus as it was. -/
def Op.apply : Op → Bus → Bus
  | .writeByte a v, b => b.writeByte a v
  | .writeWord a v e, b =>
    match b.writeWord a v e with
    | .ok b' => b'
    | .error _ => b
  | .loadCartridge rom kind, b =>
    match b.loadCartridge rom kind with
    | .ok b' => b'
    | .error _ => b
  | .reset, b => b.reset
  | .setModel m, b => b.setModel m

/-- Perform operations in order. -/
def runOps (b : Bus) (ops : List Op) : Bus := ops.foldl (fun b op => op.apply b) b

@[simp] theorem runOps_nil (b : Bus) : b.runOps [] = b := rfl

@[simp] theorem runOps_cons (b : Bus) (op : Op) (ops : List Op) :
    b.runOps (op :: ops) = (op.apply b).runOps ops := rfl

theorem runOps_append (b : Bus) (ops ops' : List Op) :
    b.runOps (ops ++ ops') = (b.runOps ops).runOps ops' := by
  simp [runOps, List.foldl_append]

/-- `b'` is what some sequence of operations makes of `b`. -/
def Reach (b b' : Bus) : Prop := ∃ ops, b.runOps ops = b'

namespace Reach

theorem refl (b : Bus) : Reach b b := ⟨[], rfl⟩

theorem trans {b₁ b₂ b₃ : Bus} (h₁ : Reach b₁ b₂) (h₂ : Reach b₂ b₃) : Reach b₁ b₃ := by
  obtain ⟨ops, rfl⟩ := h₁
  obtain ⟨ops', rfl⟩ := h₂
  exact ⟨ops ++ ops', runOps_append _ _ _⟩

theorem op (b : Bus) (op : Op) : Reach b (op.apply b) := ⟨[op], rfl⟩

theorem writeByte (b : Bus) (a : UInt16) (v : UInt8) : Reach b (b.writeByte a v) :=
  op b (.writeByte a v)

/-- A word store is two byte writes, whether or not a range check came first. -/
theorem storeWord (b : Bus) (a v : UInt16) (e : Endian) : Reach b (b.storeWord a v e) := by
  cases e
  · exact (writeByte _ _ _).trans (writeByte _ _ _)
  · exact (writeByte _ _ _).trans (writeByte _ _ _)

theorem reset (b : Bus) : Reach b b.reset := op b .reset

theorem loadCartridge {b b' : Bus} {rom : Array UInt8} {kind : UInt8}
    (h : b.loadCartridge rom kind = .ok b') : Reach b b' := by
  have := op b (.loadCartridge rom kind)
  simpa [Op.apply, h] using this

end Reach

/-- A property of buses that every operation keeps. -/
def Stable (P : Bus → Prop) : Prop := ∀ (op : Op) (b : Bus), P b → P (op.apply b)

/-- What a property must survive to be stable: byte writes, a successful
cartridge load, reset and a change of model. A word write is two byte writes,
and a failed operation changes nothing. -/
theorem Stable.of {P : Bus → Prop} (hw : ∀ b a v, P b → P (b.writeByte a v))
    (hl : ∀ b b' rom kind, P b → b.loadCartridge rom kind = .ok b' → P b')
    (hr : ∀ b, P b → P b.reset) (hm : ∀ b m, P b → P (b.setModel m)) : Stable P := by
  intro op b hb
  cases op with
  | writeByte a v => exact hw b a v hb
  | writeWord a v e =>
    simp only [Op.apply]
    split
    · rename_i b' heq
      obtain ⟨-, rfl⟩ := writeWord_eq_ok.1 heq
      cases e <;> exact hw _ _ _ (hw _ _ _ hb)
    · exact hb
  | loadCartridge rom kind =>
    simp only [Op.apply]
    split
    · exact hl b _ rom kind hb ‹_›
    · exact hb
  | reset => exact hr b hb
  | setModel m => exact hm b m hb

theorem Stable.runOps {P : Bus → Prop} (hP : Stable P) :
    ∀ (ops : List Op) (b : Bus), P b → P (b.runOps ops)
  | [], _, hb => hb
  | op :: ops, b, hb => Stable.runOps hP ops _ (hP op b hb)

/-- A stable property of a bus holds of every bus it reaches. -/
theorem Stable.reach {P : Bus → Prop} (hP : Stable P) {b b' : Bus} (h : Reach b b') (hb : P b) :
    P b' := by
  obtain ⟨ops, rfl⟩ := h
  exact hP.runOps ops b hb

/-! ### Work RAM and its echo -/

/-- Work RAM below 0xDE00 and the echo hold the same bytes. -/
def EchoMirrored (b : Bus) : Prop :=
  ∀ k (hk : k < 0x1E00), b.memory[0xC000 + k] = b.memory[0xE000 + k]

theorem echoMirrored_writeByte {b : Bus} (h : b.EchoMirrored) (a : UInt16) (v : UInt8) :
    (b.writeByte a v).EchoMirrored := by
  intro k hk
  simp only [getElem_writeByte, stores_echo a hk, h k hk]

theorem echoMirrored_loadCartridge {b b' : Bus} {rom : Array UInt8} {kind : UInt8}
    (h : b.EchoMirrored) (hl : b.loadCartridge rom kind = .ok b') : b'.EchoMirrored := by
  obtain ⟨c, -, rfl⟩ := loadCartridge_eq_ok.1 hl
  intro k hk
  have h1 : ¬ 0xC000 + k < 0x8000 := by omega
  have h2 : ¬ 0xE000 + k < 0x8000 := by omega
  simp only [Vector.getElem_ofFn, h1, h2, if_false]
  exact h k hk

/-- Power-on memory mirrors trivially: both halves are zero. -/
theorem echoMirrored_powerOn (m : Model) (cart : Option Cartridge) :
    EchoMirrored ⟨Vector.ofFn fun i => powerOnByte m cart i.val, cart, m⟩ := by
  intro k hk
  simp only [Vector.getElem_ofFn]
  rw [powerOnByte_of_lt m cart (by omega) (by omega), powerOnByte_of_lt m cart (by omega) (by omega)]

/-- Every operation keeps the echo mirrored. -/
theorem echoMirrored_stable : Stable EchoMirrored :=
  Stable.of (fun _ a v h => echoMirrored_writeByte h a v)
    (fun _ _ _ _ h hl => echoMirrored_loadCartridge h hl)
    (fun b _ => echoMirrored_powerOn b.model b.cartridge) (fun _ _ h => h)

theorem echoMirrored_new (m : Model) : (Bus.new m).EchoMirrored := echoMirrored_powerOn m none

/-! ### The ROM window -/

/-- The byte the ROM window shows at `i`: the cartridge's window byte, or zero
when no cartridge is loaded. -/
def romByte : Option Cartridge → Nat → UInt8
  | some c, i => c.windowByte i
  | none, _ => 0

/-- The ROM window shows the loaded cartridge. -/
def RomMapped (b : Bus) : Prop := ∀ i (hi : i < 0x8000), b.memory[i] = romByte b.cartridge i

theorem romMapped_writeByte {b : Bus} (h : b.RomMapped) (a : UInt16) (v : UInt8) :
    (b.writeByte a v).RomMapped := by
  intro i hi
  rw [writeByte_rom b a v hi, cartridge_writeByte, h i hi]

theorem romMapped_loadCartridge {b b' : Bus} {rom : Array UInt8} {kind : UInt8}
    (hl : b.loadCartridge rom kind = .ok b') : b'.RomMapped := by
  obtain ⟨c, -, rfl⟩ := loadCartridge_eq_ok.1 hl
  intro i hi
  simp [hi, romByte]

theorem romMapped_powerOn (m : Model) (cart : Option Cartridge) :
    RomMapped ⟨Vector.ofFn fun i => powerOnByte m cart i.val, cart, m⟩ := by
  intro i hi
  cases cart <;> simp [powerOnByte, hi, romByte]

/-- Every operation keeps the ROM window showing the loaded cartridge. -/
theorem romMapped_stable : Stable RomMapped :=
  Stable.of (fun _ a v h => romMapped_writeByte h a v) (fun _ _ _ _ _ hl => romMapped_loadCartridge hl)
    (fun b _ => romMapped_powerOn b.model b.cartridge) (fun _ _ h => h)

theorem romMapped_new (m : Model) : (Bus.new m).RomMapped := romMapped_powerOn m none

/-- The ROM window's bytes, addresses 0 to 0x7FFF in order. -/
def romWindow (b : Bus) : List UInt8 := b.memory.toList.take 0x8000

theorem length_image (c : Cartridge) : c.image.length = 0x8000 := by
  have : c.mappedLen ≤ 0x8000 := Nat.min_le_right _ _
  simp only [Cartridge.image, List.length_append, List.length_take, Array.length_toList,
    List.length_replicate]
  unfold Cartridge.mappedLen at *
  omega

theorem getElem_image (c : Cartridge) {i : Nat} (hi : i < c.image.length) :
    c.image[i] = c.windowByte i := by
  have hlen : c.mappedLen = min c.rom.size 0x8000 := rfl
  have hi' : i < 0x8000 := length_image c ▸ hi
  simp only [Cartridge.image, Cartridge.windowByte, List.getElem_append, List.length_take,
    Array.length_toList]
  split
  · rename_i h
    simp [Array.getD_eq_getD_getElem?, show i < c.rom.size by omega]
  · rename_i h
    simp [Array.getD_eq_getD_getElem?, show ¬ i < c.rom.size by omega]

theorem length_romWindow (b : Bus) : b.romWindow.length = 0x8000 := by
  simp only [romWindow, List.length_take, Vector.length_toList]
  rfl

/-- The window byte at `i` is entry `i` of the cartridge's image, or zero. -/
theorem romByte_eq_getElem (cart : Option Cartridge) {i : Nat}
    (hi : i < ((cart.map Cartridge.image).getD (List.replicate 0x8000 0)).length) :
    romByte cart i = ((cart.map Cartridge.image).getD (List.replicate 0x8000 0))[i] := by
  cases cart with
  | none => simp only [romByte, Option.map_none, Option.getD_none, List.getElem_replicate]
  | some c => simp [romByte, getElem_image]

/-- A bus whose ROM window shows its cartridge holds the cartridge's image
there, or zeros when it has none. -/
theorem romWindow_eq {b : Bus} (h : b.RomMapped) :
    b.romWindow = (b.cartridge.map Cartridge.image).getD (List.replicate 0x8000 0) := by
  apply List.ext_getElem
  · rw [length_romWindow]
    cases b.cartridge with
    | none => simp only [Option.map_none, Option.getD_none, List.length_replicate]
    | some c => simp [length_image]
  · intro i h1 h2
    have hi : i < 0x8000 := length_romWindow b ▸ h1
    simp only [romWindow, List.getElem_take, Vector.getElem_toList, h i hi]
    exact romByte_eq_getElem _ h2

/-- Buses that agree on every byte below 0x8000 show the same ROM window. -/
theorem romWindow_congr {b b' : Bus} (h : ∀ i (hi : i < 0x8000), b'.memory[i] = b.memory[i]) :
    b'.romWindow = b.romWindow := by
  apply List.ext_getElem
  · rw [length_romWindow, length_romWindow]
  · intro i h1 _
    have hi : i < 0x8000 := length_romWindow b' ▸ h1
    simp only [romWindow, List.getElem_take, Vector.getElem_toList, h i hi]

theorem romWindow_writeByte (b : Bus) (a : UInt16) (v : UInt8) :
    (b.writeByte a v).romWindow = b.romWindow :=
  romWindow_congr fun _ hi => writeByte_rom b a v hi

theorem romWindow_writeWord {b b' : Bus} {a v : UInt16} {e : Endian}
    (hw : b.writeWord a v e = .ok b') : b'.romWindow = b.romWindow := by
  obtain ⟨-, rfl⟩ := writeWord_eq_ok.1 hw
  cases e <;> simp only [storeWord_eq, romWindow_writeByte]

/-! ### The cartridge a sequence of operations leaves loaded -/

/-- The cartridge an operation loads, if it loads one. -/
def Op.loaded? : Op → Option Cartridge
  | .loadCartridge rom kind => (Cartridge.make rom kind).toOption
  | _ => none

/-- The cartridge of the last successful load among `ops`, if any. -/
def lastLoaded (ops : List Op) : Option Cartridge := (ops.filterMap Op.loaded?).getLast?

theorem lastLoaded_cons (op : Op) (ops : List Op) :
    lastLoaded (op :: ops) = (lastLoaded ops).or op.loaded? := by
  unfold lastLoaded
  cases h : op.loaded? with
  | none => simp [h]
  | some c =>
    simp only [List.filterMap_cons, h, List.getLast?_cons]
    cases (ops.filterMap Op.loaded?).getLast? <;> rfl

theorem cartridge_apply (op : Op) (b : Bus) : (op.apply b).cartridge = op.loaded?.or b.cartridge := by
  cases op with
  | writeByte a v => simp [Op.apply, Op.loaded?]
  | writeWord a v e =>
    simp only [Op.apply, Op.loaded?, Option.none_or]
    split
    · rename_i b' heq
      obtain ⟨-, rfl⟩ := writeWord_eq_ok.1 heq
      cases e <;> simp [storeWord]
    · rfl
  | loadCartridge rom kind =>
    cases hc : Cartridge.make rom kind with
    | ok c =>
      have : b.loadCartridge rom kind = .ok _ := loadCartridge_eq_ok.2 ⟨c, hc, rfl⟩
      simp [Op.apply, Op.loaded?, this, hc, Except.toOption]
    | error e =>
      have : b.loadCartridge rom kind = .error e := by simp only [loadCartridge, hc]; rfl
      simp only [Op.apply, Op.loaded?, this, hc, Except.toOption, Option.none_or]
  | reset => simp [Op.apply, Op.loaded?]
  | setModel m => rfl

/-- After a sequence of operations the loaded cartridge is the one the last
successful load loaded, or the one loaded before when no load succeeded. -/
theorem cartridge_runOps (b : Bus) (ops : List Op) :
    (b.runOps ops).cartridge = (lastLoaded ops).or b.cartridge := by
  induction ops generalizing b with
  | nil => rfl
  | cons op ops ih => rw [runOps_cons, ih, cartridge_apply, lastLoaded_cons, Option.or_assoc]

end Bus
end Dmg
