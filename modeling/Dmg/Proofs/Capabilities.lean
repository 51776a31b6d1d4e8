import Dmg.Cartridge
/-!
# Reading a capability description

A cartridge description such as `ROM+MBC1+RAM+BATT` is cut at every `+`, empty
pieces included, and its capabilities are the union of what the pieces name
(`Capabilities.parse`). Feature by feature, the capabilities have a feature
exactly when one of the tokens names it (`Capabilities.has_parse`). Reading is
therefore a homomorphism from `+`-joining to union
(`Capabilities.parse_append_plus`): a `+`-joined list of tokens reads as the
union of the tokens, whatever their order and however often each comes, and a
token that names no hardware (an unknown one, the empty one, or a vendor's
name) changes nothing. A token names hardware only when it is spelled exactly
as one of the seventeen hardware tokens (`Capabilities.ofToken_eq_empty_iff`):
case counts, and no blank is trimmed.

Key definitions: `Capabilities.Has`, `Capabilities.hardwareTokens`.
Key theorems: `Capabilities.has_parse`, `Capabilities.parse_append_plus`,
`Capabilities.has_parse_intercalate`, `Capabilities.parse_is_token_union`.
-/

namespace Dmg
namespace Capabilities

/-! ### Features -/

/-- Whether the set has the feature at bit `k`. -/
def Has (c : Capabilities) (k : Nat) : Bool := c.bits.toNat.testBit k

/-- Two sets with the same features are equal. -/
theorem eq_of_has {x y : Capabilities} (h : ∀ k, x.Has k = y.Has k) : x = y := by
  cases x with
  | mk xb =>
    cases y with
    | mk yb => exact congrArg mk (UInt16.toNat.inj (Nat.eq_of_testBit_eq h))

@[simp] theorem has_or (x y : Capabilities) (k : Nat) : (x ||| y).Has k = (x.Has k || y.Has k) := by
  change (x.bits ||| y.bits).toNat.testBit k = _
  rw [UInt16.toNat_or, Nat.testBit_or]
  rfl

@[simp] theorem has_empty (k : Nat) : empty.Has k = false := Nat.zero_testBit k

/-! ### Tokens -/

/-- Joining two descriptions with `+` joins their tokens. -/
theorem tokens_append_plus (s t : String) : tokens (s ++ "+" ++ t) = tokens s ++ tokens t := by
  have hplus : "+".toList = ['+'] := rfl
  rw [tokens, String.toList_append, String.toList_append, hplus, List.append_assoc,
    List.singleton_append, List.splitOn_append_cons_self, List.map_append]
  rfl

/-- A description with no `+` is one token. -/
theorem tokens_of_plus_not_mem {s : String} (h : '+' ∉ s.toList) : tokens s = [s] := by
  rw [tokens, List.splitOn_eq_singleton h, List.map_singleton, String.ofList_toList]

/-- The tokens of a `+`-joined list of tokens are the list itself. -/
theorem tokens_intercalate {ts : List String} (h : ∀ t ∈ ts, '+' ∉ t.toList) (hne : ts ≠ []) :
    tokens ("+".intercalate ts) = ts := by
  have hsep : ∀ l ∈ ts.map String.toList, '+' ∉ l := by
    simpa only [List.mem_map, forall_exists_index, and_imp, forall_apply_eq_imp_iff₂] using h
  have hplus : "+".toList = ['+'] := rfl
  rw [tokens, String.toList_intercalate, hplus,
    List.splitOn_intercalate '+' hsep (by simpa only [ne_eq, List.map_eq_nil_iff] using hne),
    List.map_map]
  conv => rhs; rw [← List.map_id ts]
  exact List.map_congr_left fun t _ => String.ofList_toList

/-! ### What a token names -/

/-- The tokens that name hardware. -/
def hardwareTokens : List String :=
  ["ROM", "ROM ONLY", "MBC1", "MBC2", "MBC3", "MBC5", "MMM01", "RAM", "SRAM", "BATT", "BATTERY",
    "TIMER", "RUMBLE", "Pocket Camera", "TAMA5", "HuC-1", "HuC-3"]

/-- A token names hardware exactly when it is one of the hardware tokens,
spelled as they are: the match is exact. -/
theorem ofToken_eq_empty_iff (t : String) : ofToken t = empty ↔ t ∉ hardwareTokens := by
  unfold ofToken
  -- one case per hardware token, where both sides are false, and the fallback,
  -- whose hypotheses rule out every hardware token
  split <;> simp_all [hardwareTokens] <;> decide

/-! ### The union of the tokens -/

/-- Folding tokens into a set adds exactly the features some token names. -/
theorem has_foldl (a : Capabilities) (ts : List String) (k : Nat) :
    (ts.foldl (fun c t => c ||| ofToken t) a).Has k = (a.Has k || ts.any fun t => (ofToken t).Has k) := by
  induction ts generalizing a with
  | nil => simp
  | cons t ts ih => rw [List.foldl_cons, ih, has_or, List.any_cons, Bool.or_assoc]

/-- The capabilities of a description have a feature exactly when one of its
tokens names it. -/
theorem has_parse (s : String) (k : Nat) :
    (parse s).Has k = (tokens s).any fun t => (ofToken t).Has k := by
  rw [parse, has_foldl, has_empty, Bool.false_or]

/-- Reading turns `+`-joining into union. -/
theorem parse_append_plus (s t : String) : parse (s ++ "+" ++ t) = parse s ||| parse t :=
  eq_of_has fun k => by rw [has_or, has_parse, has_parse, has_parse, tokens_append_plus, List.any_append]

/-- A description with no `+` reads as its one token. -/
theorem parse_of_plus_not_mem {t : String} (h : '+' ∉ t.toList) : parse t = ofToken t :=
  eq_of_has fun k => by rw [has_parse, tokens_of_plus_not_mem h, List.any_cons, List.any_nil, Bool.or_false]

/-- A `+`-joined list of tokens, none with a `+` of its own, reads as the union
of what the tokens name. The empty list is the empty description, whose one
empty token names nothing. -/
theorem has_parse_intercalate {ts : List String} (h : ∀ t ∈ ts, '+' ∉ t.toList) (k : Nat) :
    (parse ("+".intercalate ts)).Has k = ts.any fun t => (ofToken t).Has k := by
  cases ts with
  | nil =>
    rw [String.intercalate_nil, parse_of_plus_not_mem (by simp), (ofToken_eq_empty_iff "").2 (by decide),
      has_empty, List.any_nil]
  | cons t ts => rw [has_parse, tokens_intercalate h (List.cons_ne_nil t ts)]

/-- The union does not see the order of the tokens or how often each comes. -/
theorem parse_intercalate_congr {ts us : List String} (hts : ∀ t ∈ ts, '+' ∉ t.toList)
    (hus : ∀ u ∈ us, '+' ∉ u.toList) (hmem : ∀ t, t ∈ ts ↔ t ∈ us) :
    parse ("+".intercalate ts) = parse ("+".intercalate us) := by
  refine eq_of_has fun k => ?_
  rw [has_parse_intercalate hts, has_parse_intercalate hus, Bool.eq_iff_iff, List.any_eq_true,
    List.any_eq_true]
  exact exists_congr fun t => and_congr_left' (hmem t)

/-- A token that names no hardware adds nothing, on either side. -/
theorem parse_append_unnamed {t : String} (ht : t ∉ hardwareTokens) (hplus : '+' ∉ t.toList)
    (s : String) : parse (s ++ "+" ++ t) = parse s ∧ parse (t ++ "+" ++ s) = parse s := by
  have hnone : parse t = empty := by
    rw [parse_of_plus_not_mem hplus, ofToken_eq_empty_iff]
    exact ht
  refine ⟨eq_of_has fun k => ?_, eq_of_has fun k => ?_⟩
  · rw [parse_append_plus, has_or, hnone, has_empty, Bool.or_false]
  · rw [parse_append_plus, has_or, hnone, has_empty, Bool.false_or]

/-- **Reading a description is a homomorphism from `+`-joining to union.** A
`+`-joined list of tokens reads as the union of what they name, whatever their
order and repetitions; only the exact hardware tokens name anything, so unknown
tokens, the empty token and the vendor names add nothing. -/
theorem parse_is_token_union :
    (∀ s t : String, parse (s ++ "+" ++ t) = parse s ||| parse t) ∧
    (∀ ts : List String, (∀ t ∈ ts, '+' ∉ t.toList) →
      ∀ k, (parse ("+".intercalate ts)).Has k = ts.any fun t => (ofToken t).Has k) ∧
    (∀ ts us : List String, (∀ t ∈ ts, '+' ∉ t.toList) → (∀ u ∈ us, '+' ∉ u.toList) →
      (∀ t, t ∈ ts ↔ t ∈ us) → parse ("+".intercalate ts) = parse ("+".intercalate us)) ∧
    (∀ t : String, ofToken t = empty ↔ t ∉ hardwareTokens) ∧
    (∀ t : String, t ∉ hardwareTokens → '+' ∉ t.toList → ∀ s : String,
      parse (s ++ "+" ++ t) = parse s ∧ parse (t ++ "+" ++ s) = parse s) ∧
    ("" ∉ hardwareTokens ∧ "Bandai" ∉ hardwareTokens ∧ "Hudson" ∉ hardwareTokens) :=
  ⟨parse_append_plus, fun _ h => has_parse_intercalate h, fun _ _ => parse_intercalate_congr,
    ofToken_eq_empty_iff, fun _ ht hplus => parse_append_unnamed ht hplus, by decide⟩

/-- `MBC1+RAM+BATTERY` reads as its tokens reordered with `MBC1` repeated, and
a vendor name joined to a list adds nothing. -/
theorem reordered_tokens_read_alike :
    parse ("+".intercalate ["MBC1", "RAM", "BATTERY"]) =
      parse ("+".intercalate ["BATTERY", "RAM", "MBC1", "MBC1"]) ∧
    parse ("MBC1+RAM" ++ "+" ++ "Hudson") = parse "MBC1+RAM" := by
  obtain ⟨-, -, hcongr, -, hunnamed, -⟩ := parse_is_token_union
  have hsame : ∀ t : String, t ∈ ["MBC1", "RAM", "BATTERY"] ↔ t ∈ ["BATTERY", "RAM", "MBC1", "MBC1"] := by
    intro t
    simp only [List.mem_cons, List.not_mem_nil, or_false]
    grind
  exact ⟨hcongr _ _ (by decide) (by decide) hsame, (hunnamed "Hudson" (by decide) (by decide) "MBC1+RAM").1⟩

end Capabilities
end Dmg
