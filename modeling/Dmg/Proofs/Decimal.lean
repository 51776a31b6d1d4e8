import Dmg.Proofs.Sleep
/-!
# Decimal arithmetic with DAA

A number below `100 ^ n` is held in packed BCD as `n` bytes, least significant
first, each byte two decimal digits: the tens in the high nibble and the
units in the low one (`bcd`, `toBcd`). A program adds two such numbers byte
by byte from the lowest: it loads a byte of the first into A, adds the byte
of the second (`ADD` on the lowest byte, `ADC` above it, taking the carry the
byte below left), and adjusts with `DAA` (`decimalRun`). Subtraction is the
same with `SUB` and `SBC`.

`DAA` turns the binary sum or difference of two BCD bytes into the BCD
digits of the decimal one, and its carry is the decimal carry or borrow out
of the byte (`Alu.daa_add_bcd`, `Alu.daa_sub_bcd`): the half carry of the
addition tells it the units overflowed, the carry that the tens did. So the
carry it leaves is the right carry into the next byte, and by induction on
the number of bytes the A values are the BCD bytes of `(x + y) mod 100 ^ n`,
or `(x - y) mod 100 ^ n`, and the last carry is whether the sum reached
`100 ^ n`, or whether `x < y` (`decimal_add_sub`).

Key definitions: `bcd`, `toBcd`, `decimalByte`, `decimalRun`, `decimalRegs`.
Key theorems: `Alu.toNat_daa_of_add`, `Alu.toNat_daa_of_sub`, `Alu.daa_add_bcd`,
`Alu.daa_sub_bcd`, `decimalRun_adc`, `decimalRun_sbc`, `decimal_add_sub`.
-/

namespace Dmg

/-! ### Packed BCD -/

/-- The packed-BCD byte of a number below 100: its tens in the high nibble,
its units in the low one. -/
def bcd (d : Nat) : UInt8 := UInt8.ofNat (d / 10 * 16 + d % 10)

/-- The `n` packed-BCD bytes of `x`, least significant first. -/
def toBcd : Nat → Nat → List UInt8
  | 0, _ => []
  | n + 1, x => bcd (x % 100) :: toBcd n (x / 100)

theorem toNat_bcd {d : Nat} (h : d < 100) : (bcd d).toNat = d / 10 * 16 + d % 10 := by
  unfold bcd
  rw [UInt8.toNat_ofNat']
  omega

/-! ### The byte operations on numbers -/

namespace Alu

theorem toNat_add_fst (a v : UInt8) (c : Bool) :
    (add a v c).1.toNat = (a.toNat + v.toNat + c.toNat) % 256 := by
  unfold add
  cases c <;> simp

theorem add_snd (a v : UInt8) (c : Bool) :
    (add a v c).2.subtract = false ∧
      (add a v c).2.halfCarry = decide (15 < a.toNat % 16 + v.toNat % 16 + c.toNat) ∧
      (add a v c).2.carry = decide (255 < a.toNat + v.toNat + c.toNat) := by
  unfold add
  cases c <;> simp

theorem toNat_sub_fst (a v : UInt8) (b : Bool) :
    (sub a v b).1.toNat = (a.toNat + 512 - v.toNat - b.toNat) % 256 := by
  have ha := a.toNat_lt
  have hv := v.toNat_lt
  unfold sub
  cases b <;> simp [UInt8.toNat_sub] <;> omega

theorem sub_snd (a v : UInt8) (b : Bool) :
    (sub a v b).2.subtract = true ∧
      (sub a v b).2.halfCarry = decide (a.toNat % 16 < v.toNat % 16 + b.toNat) ∧
      (sub a v b).2.carry = decide (a.toNat < v.toNat + b.toNat) := by
  unfold sub
  cases b <;> simp

/-- `DAA` after an addition, on numbers: it adds 6 when H is set or the low
nibble is above 9, and 0x60 when C is set or the byte is above 0x99; C is
then whether it added 0x60. -/
theorem toNat_daa_of_add (a : UInt8) (f : Flags) (hn : f.subtract = false) :
    (daa a f).1.toNat =
      (a.toNat + (if f.halfCarry = true ∨ 9 < a.toNat % 16 then 6 else 0) +
        (if f.carry = true ∨ 0x99 < a.toNat then 0x60 else 0)) % 256 ∧
      (daa a f).2.carry = decide (f.carry = true ∨ 0x99 < a.toNat) := by
  have hlow : (a &&& 0x0F > 0x09) ↔ 9 < a.toNat % 16 := by
    rw [GT.gt, UInt8.lt_iff_toNat_lt, toNat_and_low]
    rfl
  have hhigh : (a > 0x99) ↔ 0x99 < a.toNat := UInt8.lt_iff_toNat_lt
  unfold daa
  simp only [hn, Bool.false_eq_true, if_false]
  -- the four tests decide the correction, and each correction is a literal
  by_cases hc : f.carry <;> by_cases hh : f.halfCarry <;> by_cases hl : 9 < a.toNat % 16 <;>
    by_cases hb : 0x99 < a.toNat <;>
    simp [hc, hh, hl, hb, hlow, hhigh, UInt8.toNat_add] <;> decide

/-- `DAA` after a subtraction, on numbers: it takes 6 away when H is set and
0x60 when C is set, and keeps C. -/
theorem toNat_daa_of_sub (a : UInt8) (f : Flags) (hn : f.subtract = true) :
    (daa a f).1.toNat =
      (a.toNat + 512 - (if f.halfCarry = true then 6 else 0) - (if f.carry = true then 0x60 else 0)) % 256 ∧
      (daa a f).2.carry = f.carry := by
  have ha := a.toNat_lt
  -- with both flags set the two corrections are or-ed into one byte
  have hboth : (0x60 ||| 0x06 : UInt8) = 0x66 := by decide
  unfold daa
  simp only [hn, if_true]
  by_cases hc : f.carry <;> by_cases hh : f.halfCarry <;>
    simp [hc, hh, hboth, UInt8.toNat_sub] <;> omega

@[simp] theorem daa_subtract (a : UInt8) (f : Flags) : (daa a f).2.subtract = f.subtract := rfl

/-- The correction after an addition, on a byte whose tens and units were
added digit by digit: `t` is the sum of the tens and `u` that of the units and
the carry in. Every such pair comes out as the BCD byte of `10 t + u` modulo
100, and the carry is the decimal one. -/
theorem daa_add_digits : ∀ t < 19, ∀ u < 20,
    ((16 * t + u) % 256 + (if 15 < u ∨ 9 < (16 * t + u) % 256 % 16 then 6 else 0) +
        (if 255 < 16 * t + u ∨ 0x99 < (16 * t + u) % 256 then 0x60 else 0)) % 256 =
      (10 * t + u) % 100 / 10 * 16 + (10 * t + u) % 100 % 10 ∧
    (255 < 16 * t + u ∨ 0x99 < (16 * t + u) % 256 ↔ 100 ≤ 10 * t + u) := by
  decide

/-- The correction after a subtraction, on a byte whose tens and units were
subtracted digit by digit: `p` is the difference of the tens plus 9 and `q`
that of the units, less the borrow in, plus 10. Every such pair comes out as
the BCD byte of `10 p + q` modulo 100, and the borrow is the decimal one. -/
theorem daa_sub_digits : ∀ p < 19, ∀ q < 20,
    ((16 * p + q + 358) % 256 + 512 - (if q < 10 then 6 else 0) -
        (if 16 * p + q < 154 then 0x60 else 0)) % 256 =
      (10 * p + q) % 100 / 10 * 16 + (10 * p + q) % 100 % 10 ∧
    (16 * p + q < 154 ↔ 10 * p + q < 100) := by
  decide

/-- **DAA after a BCD addition.** Adding two BCD bytes with a carry in and
adjusting gives the BCD byte of the decimal sum below 100, and the carry of
the decimal sum. -/
theorem daa_add_bcd {a b : Nat} (ha : a < 100) (hb : b < 100) (c : Bool) :
    (daa (add (bcd a) (bcd b) c).1 (add (bcd a) (bcd b) c).2).1 = bcd ((a + b + c.toNat) % 100) ∧
      (daa (add (bcd a) (bcd b) c).1 (add (bcd a) (bcd b) c).2).2.carry =
        decide (100 ≤ a + b + c.toNat) := by
  obtain ⟨hn, hh, hc⟩ := add_snd (bcd a) (bcd b) c
  obtain ⟨hr, hcarry⟩ := toNat_daa_of_add _ _ hn
  have hc1 : c.toNat ≤ 1 := Bool.toNat_le c
  -- the tens are summed in the high nibble and the units, with the carry, in the low one
  have hsum : (bcd a).toNat + (bcd b).toNat + c.toNat =
      16 * (a / 10 + b / 10) + (a % 10 + b % 10 + c.toNat) := by
    rw [toNat_bcd ha, toNat_bcd hb]
    omega
  have hunits : (bcd a).toNat % 16 + (bcd b).toNat % 16 + c.toNat = a % 10 + b % 10 + c.toNat := by
    rw [toNat_bcd ha, toNat_bcd hb]
    omega
  have hdec : a + b + c.toNat = 10 * (a / 10 + b / 10) + (a % 10 + b % 10 + c.toNat) := by omega
  obtain ⟨hval, hcy⟩ :=
    daa_add_digits (a / 10 + b / 10) (by omega) (a % 10 + b % 10 + c.toNat) (by omega)
  rw [← UInt8.toNat_inj, hr, hcarry, hh, hc, toNat_add_fst, hsum, hunits, hdec,
    toNat_bcd (Nat.mod_lt _ (by decide))]
  simp only [decide_eq_true_eq]
  exact ⟨hval, decide_eq_decide.2 hcy⟩

/-- **DAA after a BCD subtraction.** Subtracting two BCD bytes with a borrow
in and adjusting gives the BCD byte of the decimal difference modulo 100, and
the borrow of the decimal difference. -/
theorem daa_sub_bcd {a b : Nat} (ha : a < 100) (hb : b < 100) (c : Bool) :
    (daa (sub (bcd a) (bcd b) c).1 (sub (bcd a) (bcd b) c).2).1 =
        bcd ((a + 100 - b - c.toNat) % 100) ∧
      (daa (sub (bcd a) (bcd b) c).1 (sub (bcd a) (bcd b) c).2).2.carry = decide (a < b + c.toNat) := by
  obtain ⟨hn, hh, hc⟩ := sub_snd (bcd a) (bcd b) c
  obtain ⟨hr, hcarry⟩ := toNat_daa_of_sub _ _ hn
  have hc1 : c.toNat ≤ 1 := Bool.toNat_le c
  -- the tens and the units are subtracted apart, shifted so that neither goes below zero
  have hdiff : (bcd a).toNat + 512 - (bcd b).toNat - c.toNat =
      16 * (a / 10 + 9 - b / 10) + (a % 10 + 10 - b % 10 - c.toNat) + 358 := by
    rw [toNat_bcd ha, toNat_bcd hb]
    omega
  have hunits : (bcd a).toNat % 16 < (bcd b).toNat % 16 + c.toNat ↔
      a % 10 + 10 - b % 10 - c.toNat < 10 := by
    rw [toNat_bcd ha, toNat_bcd hb]
    omega
  have hborrow : (bcd a).toNat < (bcd b).toNat + c.toNat ↔
      16 * (a / 10 + 9 - b / 10) + (a % 10 + 10 - b % 10 - c.toNat) < 154 := by
    rw [toNat_bcd ha, toNat_bcd hb]
    omega
  have hdec : a + 100 - b - c.toNat = 10 * (a / 10 + 9 - b / 10) + (a % 10 + 10 - b % 10 - c.toNat) := by
    omega
  have hlt : a < b + c.toNat ↔
      10 * (a / 10 + 9 - b / 10) + (a % 10 + 10 - b % 10 - c.toNat) < 100 := by
    omega
  obtain ⟨hval, hcy⟩ :=
    daa_sub_digits (a / 10 + 9 - b / 10) (by omega) (a % 10 + 10 - b % 10 - c.toNat) (by omega)
  rw [← UInt8.toNat_inj, hr, hcarry, hh, hc, toNat_sub_fst, hdiff, hdec,
    toNat_bcd (Nat.mod_lt _ (by decide))]
  simp only [decide_eq_true_eq, hunits, hborrow, hlt]
  exact ⟨hval, decide_eq_decide.2 hcy⟩

end Alu

/-! ### Carrying from pair to pair -/

/-- The sum of two numbers below `100 ^ (n + 1)` with a carry in, modulo
`100 ^ (n + 1)`, split at its lowest decimal pair: the low pair is that of
the low pairs' sum, the rest is the sum of the rest with the low pairs'
carry, and the sum reaches `100 ^ (n + 1)` exactly when the rest's sum reaches
`100 ^ n`. -/
theorem sum_mod_pow_succ (x y : Nat) {c : Nat} (n : Nat) (hc : c ≤ 1) :
    (x + y + c) % 100 ^ (n + 1) % 100 = (x % 100 + y % 100 + c) % 100 ∧
      (x + y + c) % 100 ^ (n + 1) / 100 =
        (x / 100 + y / 100 + (decide (100 ≤ x % 100 + y % 100 + c)).toNat) % 100 ^ n ∧
      (100 ^ (n + 1) ≤ x + y + c ↔
        100 ^ n ≤ x / 100 + y / 100 + (decide (100 ≤ x % 100 + y % 100 + c)).toNat) := by
  -- the low pairs carry at most one into the rest
  have hdiv : (x + y + c) / 100 = x / 100 + y / 100 + (decide (100 ≤ x % 100 + y % 100 + c)).toNat := by
    by_cases hlow : 100 ≤ x % 100 + y % 100 + c <;>
      simp only [hlow, decide_true, decide_false, Bool.toNat_true, Bool.toNat_false] <;> omega
  have hreach : 100 * 100 ^ n ≤ x + y + c ↔ 100 ^ n ≤ (x + y + c) / 100 := by
    rw [Nat.le_div_iff_mul_le (by decide), mul_comm]
  rw [pow_succ', Nat.mod_mul_right_mod, Nat.mod_mul_right_div_self, hreach, hdiv]
  exact ⟨by omega, rfl, Iff.rfl⟩

/-- The same split for a difference with a borrow in, taken modulo
`100 ^ (n + 1)` by adding it first: the rest takes the low pairs' borrow. -/
theorem diff_mod_pow_succ {x y b : Nat} (n : Nat) (hy : y < 100 ^ (n + 1)) (hb : b ≤ 1) :
    (x + 100 ^ (n + 1) - y - b) % 100 ^ (n + 1) % 100 = (x % 100 + 100 - y % 100 - b) % 100 ∧
      (x + 100 ^ (n + 1) - y - b) % 100 ^ (n + 1) / 100 =
        (x / 100 + 100 ^ n - y / 100 - (decide (x % 100 < y % 100 + b)).toNat) % 100 ^ n ∧
      (x < y + b ↔ x / 100 < y / 100 + (decide (x % 100 < y % 100 + b)).toNat) := by
  rw [pow_succ'] at hy ⊢
  rw [Nat.mod_mul_right_mod, Nat.mod_mul_right_div_self]
  -- whether the low pairs borrow decides every digit above them
  by_cases hlow : x % 100 < y % 100 + b <;> simp only [hlow, decide_true, decide_false,
    Bool.toNat_true, Bool.toNat_false] <;> refine ⟨by omega, ?_, by omega⟩ <;> congr 1 <;> omega

/-- A difference that cannot go below zero, taken as a natural number, is the
difference modulo `P` of integers. -/
theorem toNat_sub_emod {x y P : Nat} (hy : y ≤ P) :
    (((x : ℤ) - y) % (P : ℤ)).toNat = (x + P - y) % P := by
  have hcast : ((x + P - y : Nat) : ℤ) = (x : ℤ) - y + P := by omega
  calc (((x : ℤ) - y) % (P : ℤ)).toNat = (((x + P - y) % P : Nat) : ℤ).toNat := by
        rw [Int.natCast_mod, hcast, ← Int.emod_eq_add_self_emod]
    _ = (x + P - y) % P := Int.toNat_natCast _

/-! ### Byte-by-byte programs -/

section Programs

variable {σ : Type}

/-- One byte of a decimal sum or difference: A := `x`, then `op` with `y`,
then `DAA`. -/
def decimalByte (op : AluOp) (x y : UInt8) : Exec σ Unit := do
  Exec.modifyRegs fun r => { r with a := x }
  Exec.accumulate op y
  discard (Instr.run .daa)

/-- The bytes of a decimal sum or difference, least significant first:
`first` on the lowest pair, `next` on each pair above it. It returns A after
each byte. -/
def decimalRun (first next : AluOp) : List (UInt8 × UInt8) → Exec σ (List UInt8)
  | [] => pure []
  | (x, y) :: rest => do
    decimalByte first x y
    let a := (← Exec.regs).a
    return a :: (← decimalRun next next rest)

/-- The registers after one byte: A and F as `op` on `x` and `y` and then
`DAA` leave them, the others as they were. -/
def decimalRegs (op : AluOp) (x y : UInt8) (r : Registers) : Registers :=
  { r with a := (Alu.daa (op.apply x y r.flags).1 (op.apply x y r.flags).2).1,
           f := (Alu.daa (op.apply x y r.flags).1 (op.apply x y r.flags).2).2.toByte }

@[simp] theorem a_decimalRegs (op : AluOp) (x y : UInt8) (r : Registers) :
    (decimalRegs op x y r).a = (Alu.daa (op.apply x y r.flags).1 (op.apply x y r.flags).2).1 := rfl

@[simp] theorem flags_decimalRegs (op : AluOp) (x y : UInt8) (r : Registers) :
    (decimalRegs op x y r).flags = (Alu.daa (op.apply x y r.flags).1 (op.apply x y r.flags).2).2 :=
  Flags.ofByte_toByte _

/-- `op` spells its flags out in F with a clear low nibble, so the flags `DAA`
sets one at a time are spelled out too. -/
theorem aluDaa_accumulate (op : AluOp) (x y : UInt8) (r : Registers) :
    ({ r with a := x }.accumulate op y).aluDaa = decimalRegs op x y r := by
  simp only [Registers.aluDaa_eq, Registers.accumulate_eq, Registers.flags,
    Flags.ofByte_toByte, Registers.writeFlags, Flags.toByte_low, UInt8.or_zero, decimalRegs]

/-- A byte changes only the registers, and those as `decimalRegs` says. -/
theorem run_decimalByte (op : AluOp) (x y : UInt8) (c : Console σ) :
    (decimalByte op x y).run c = .ok () { c with regs := decimalRegs op x y c.regs } := by
  rw [← aluDaa_accumulate]
  rfl

/-- `ADC` and `SBC` with the carry cleared are `ADD` and `SUB`. -/
theorem decimalRegs_clear_carry (x y : UInt8) (r : Registers) :
    decimalRegs .adc x y (r.setFlag .c false) = decimalRegs .add x y r ∧
      decimalRegs .sbc x y (r.setFlag .c false) = decimalRegs .sub x y r := by
  constructor <;> simp only [decimalRegs, AluOp.apply, Registers.flags_setFlag, Flags.set] <;> rfl

theorem run_decimalRun_cons (first next : AluOp) (x y : UInt8) (rest : List (UInt8 × UInt8))
    (c : Console σ) :
    (decimalRun first next ((x, y) :: rest)).run c =
      match (decimalRun next next rest).run { c with regs := decimalRegs first x y c.regs } with
      | .ok as s => .ok ((decimalRegs first x y c.regs).a :: as) s
      | .error e s => .error e s := by
  simp only [decimalRun, EStateM.run_bind, run_decimalByte, Exec.run_regs]
  cases (decimalRun next next rest).run _ <;> rfl

/-- `ADD` and `SUB` on the lowest byte are `ADC` and `SBC` with the carry
cleared first. -/
theorem run_decimalRun_first (next : AluOp) (p : UInt8 × UInt8) (rest : List (UInt8 × UInt8))
    (c : Console σ) :
    (decimalRun .add next (p :: rest)).run c =
        (decimalRun .adc next (p :: rest)).run { c with regs := c.regs.setFlag .c false } ∧
      (decimalRun .sub next (p :: rest)).run c =
        (decimalRun .sbc next (p :: rest)).run { c with regs := c.regs.setFlag .c false } := by
  obtain ⟨x, y⟩ := p
  obtain ⟨hadd, hsub⟩ := decimalRegs_clear_carry x y c.regs
  exact ⟨by rw [run_decimalRun_cons, run_decimalRun_cons, hadd],
    by rw [run_decimalRun_cons, run_decimalRun_cons, hsub]⟩

/-- **Decimal addition, with the carry.** `ADC` and `DAA` pair by pair over
the BCD bytes of `x` and `y` leave in A the BCD bytes of `x + y` plus the
carry in, modulo `100 ^ n`, and the carry out of the whole sum. -/
theorem decimalRun_adc (n : Nat) :
    ∀ {x y : Nat}, x < 100 ^ n → y < 100 ^ n → ∀ c : Console σ,
      ∃ r, (decimalRun .adc .adc ((toBcd n x).zip (toBcd n y))).run c =
          .ok (toBcd n ((x + y + c.regs.flags.carry.toNat) % 100 ^ n)) { c with regs := r } ∧
        r.flags.carry = decide (100 ^ n ≤ x + y + c.regs.flags.carry.toNat) := by
  induction n with
  | zero =>
    intro x y hx hy c
    refine ⟨c.regs, rfl, ?_⟩
    cases c.regs.flags.carry <;> simp_all
  | succ n ih =>
    intro x y hx hy c
    have hx' : x / 100 < 100 ^ n := Nat.div_lt_of_lt_mul (by rwa [← pow_succ'])
    have hy' : y / 100 < 100 ^ n := Nat.div_lt_of_lt_mul (by rwa [← pow_succ'])
    -- the lowest pair, with the carry in
    obtain ⟨hbyte, hcarry⟩ :=
      Alu.daa_add_bcd (Nat.mod_lt x (by decide)) (Nat.mod_lt y (by decide)) c.regs.flags.carry
    -- the pairs above it, with the carry out of the lowest
    obtain ⟨r, hrun, hr⟩ :=
      ih hx' hy' { c with regs := decimalRegs .adc (bcd (x % 100)) (bcd (y % 100)) c.regs }
    obtain ⟨hlow, hhigh, hreach⟩ := sum_mod_pow_succ x y n (Bool.toNat_le c.regs.flags.carry)
    refine ⟨r, ?_, ?_⟩
    · simp only [toBcd, List.zip_cons_cons]
      rw [run_decimalRun_cons, hrun]
      simp only [a_decimalRegs, flags_decimalRegs, AluOp.apply]
      rw [hbyte, hlow, hhigh]
      simp only [hcarry]
    · simp only [flags_decimalRegs, AluOp.apply, hcarry] at hr
      rw [hr, decide_eq_decide]
      exact hreach.symm

/-- **Decimal subtraction, with the borrow.** `SBC` and `DAA` pair by pair
over the BCD bytes of `x` and `y` leave in A the BCD bytes of `x - y` less
the borrow in, modulo `100 ^ n`, and the borrow out of the whole difference. -/
theorem decimalRun_sbc (n : Nat) :
    ∀ {x y : Nat}, x < 100 ^ n → y < 100 ^ n → ∀ c : Console σ,
      ∃ r, (decimalRun .sbc .sbc ((toBcd n x).zip (toBcd n y))).run c =
          .ok (toBcd n ((x + 100 ^ n - y - c.regs.flags.carry.toNat) % 100 ^ n)) { c with regs := r } ∧
        r.flags.carry = decide (x < y + c.regs.flags.carry.toNat) := by
  induction n with
  | zero =>
    intro x y hx hy c
    refine ⟨c.regs, rfl, ?_⟩
    cases c.regs.flags.carry <;> simp_all
  | succ n ih =>
    intro x y hx hy c
    have hx' : x / 100 < 100 ^ n := Nat.div_lt_of_lt_mul (by rwa [← pow_succ'])
    have hy' : y / 100 < 100 ^ n := Nat.div_lt_of_lt_mul (by rwa [← pow_succ'])
    -- the lowest pair, with the borrow in
    obtain ⟨hbyte, hborrow⟩ :=
      Alu.daa_sub_bcd (Nat.mod_lt x (by decide)) (Nat.mod_lt y (by decide)) c.regs.flags.carry
    -- the pairs above it, with the borrow out of the lowest
    obtain ⟨r, hrun, hr⟩ :=
      ih hx' hy' { c with regs := decimalRegs .sbc (bcd (x % 100)) (bcd (y % 100)) c.regs }
    obtain ⟨hlow, hhigh, hless⟩ := diff_mod_pow_succ n hy (Bool.toNat_le c.regs.flags.carry)
    refine ⟨r, ?_, ?_⟩
    · simp only [toBcd, List.zip_cons_cons]
      rw [run_decimalRun_cons, hrun]
      simp only [a_decimalRegs, flags_decimalRegs, AluOp.apply]
      rw [hbyte, hlow, hhigh]
      simp only [hborrow]
    · simp only [flags_decimalRegs, AluOp.apply, hborrow] at hr
      rw [hr, decide_eq_decide]
      exact hless.symm

/-- **Multi-byte decimal arithmetic.** For `n ≥ 1` pairs of BCD bytes of `x`
and `y` below `100 ^ n`, from any state: loading each byte of `x` into A,
adding the byte of `y` (`ADD` on the lowest, `ADC` above it) and adjusting
with `DAA` leaves in A, byte after byte, the BCD bytes of `(x + y) mod 100 ^ n`,
and in C whether `x + y` reached `100 ^ n`. With `SUB` and `SBC` the bytes are
those of `(x - y) mod 100 ^ n` and C is whether `x < y`. Only A and F change. -/
theorem decimal_add_sub {n : Nat} (hn : 0 < n) {x y : Nat} (hx : x < 100 ^ n) (hy : y < 100 ^ n)
    (c : Console σ) :
    (∃ r, (decimalRun .add .adc ((toBcd n x).zip (toBcd n y))).run c =
        .ok (toBcd n ((x + y) % 100 ^ n)) { c with regs := r } ∧
      r.flags.carry = decide (100 ^ n ≤ x + y)) ∧
    (∃ r, (decimalRun .sub .sbc ((toBcd n x).zip (toBcd n y))).run c =
        .ok (toBcd n (((x : ℤ) - y) % 100 ^ n).toNat) { c with regs := r } ∧
      r.flags.carry = decide (x < y)) := by
  obtain ⟨m, rfl⟩ : ∃ m, n = m + 1 := ⟨n - 1, by omega⟩
  -- the lowest byte is the carrying one with the carry cleared
  have hzip : (toBcd (m + 1) x).zip (toBcd (m + 1) y) =
      (bcd (x % 100), bcd (y % 100)) :: (toBcd m (x / 100)).zip (toBcd m (y / 100)) := rfl
  obtain ⟨r, hrun, hr⟩ := decimalRun_adc (m + 1) hx hy { c with regs := c.regs.setFlag .c false }
  obtain ⟨r', hrun', hr'⟩ := decimalRun_sbc (m + 1) hx hy { c with regs := c.regs.setFlag .c false }
  simp only [Registers.flags_setFlag, Flags.set, Bool.toNat_false, Nat.add_zero, Nat.sub_zero]
    at hrun hr hrun' hr'
  have hdiff : (((x : ℤ) - y) % 100 ^ (m + 1)).toNat = (x + 100 ^ (m + 1) - y) % 100 ^ (m + 1) := by
    have hpow : ((100 ^ (m + 1) : Nat) : ℤ) = 100 ^ (m + 1) := by push_cast; rfl
    rw [← hpow, toNat_sub_emod hy.le]
  refine ⟨⟨r, ?_, hr⟩, ⟨r', ?_, hr'⟩⟩
  · rw [hzip, (run_decimalRun_first .adc _ _ c).1, ← hzip, hrun]
  · rw [hzip, (run_decimalRun_first .sbc _ _ c).2, ← hzip, hrun', hdiff]

/-- 4321 + 9876 on four digits leaves 0x97 and then 0x41 in A and carries
out; 4321 - 9876 leaves 0x45 and then 0x44, that is 4445, and borrows. -/
theorem decimal_sum_and_difference_wrap :
    (∃ r, (decimalRun .add .adc ((toBcd 2 4321).zip (toBcd 2 9876))).run (Console.new Config.standard ()) =
        .ok [0x97, 0x41] { Console.new Config.standard () with regs := r } ∧ r.flags.carry = true) ∧
    (∃ r, (decimalRun .sub .sbc ((toBcd 2 4321).zip (toBcd 2 9876))).run (Console.new Config.standard ()) =
        .ok [0x45, 0x44] { Console.new Config.standard () with regs := r } ∧ r.flags.carry = true) := by
  obtain ⟨⟨r, hrun, hr⟩, ⟨r', hrun', hr'⟩⟩ := decimal_add_sub (n := 2) (x := 4321) (y := 9876)
    (by decide) (by decide) (by decide) (Console.new Config.standard ())
  have hsum : toBcd 2 ((4321 + 9876) % 100 ^ 2) = [0x97, 0x41] := rfl
  have hdiff : toBcd 2 (((4321 : ℤ) - 9876) % 100 ^ 2).toNat = [0x45, 0x44] := rfl
  exact ⟨⟨r, hsum ▸ hrun, hr.trans rfl⟩, ⟨r', hdiff ▸ hrun', hr'.trans rfl⟩⟩

end Programs

end Dmg
