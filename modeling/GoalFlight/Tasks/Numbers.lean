import GoalFlight.Tasks.Items

/-!
# Item ids and their numbers

An id is minted from a family and a number, `f"{family}-{number:03d}"`.  The allocators read
the numbers back from the ids of the store: what follows the family's name and hyphen, if
every character of it is a digit.

`sequenceOf_mintedId` reads a minted id back, `mintedId_inj` follows from it.
-/

namespace GoalFlight.Tasks

open Json

/-- `VALID_FAMILIES`. -/
inductive Family
  | t
  | b
  | d
  | q
  | adr
deriving DecidableEq

/-- The family in an id. -/
def Family.name : Family → String
  | .t => "t"
  | .b => "b"
  | .d => "d"
  | .q => "q"
  | .adr => "ADR"

/-- What a family's ids begin with. -/
def Family.idPrefix (f : Family) : List Char := f.name.toList ++ ['-']

/-- `f"{number:03d}"`. -/
def paddedDigits (n : ℕ) : List Char :=
  List.replicate (3 - (Nat.toDigits 10 n).length) '0' ++ Nat.toDigits 10 n

/-- The id of a family and a number. -/
def mintedId (f : Family) (n : ℕ) : String := String.ofList (f.idPrefix ++ paddedDigits n)

/-- What Unicode says of digits. -/
structure Digits where
  /-- `c.isdigit()`. -/
  isDigit : Char → Bool
  /-- The value of a decimal digit, which not every digit is. -/
  decimal? : Char → Option ℕ
  ascii : ∀ d < 10, isDigit (Nat.digitChar d) = true ∧ decimal? (Nat.digitChar d) = some d

variable (u : Digits)

/-- `int(text)` of digits; it refuses those that are no decimal digits. -/
def intOf (n : ℕ) : List Char → Option ℕ
  | [] => some n
  | c :: rest => (u.decimal? c).bind fun d => intOf (10 * n + d) rest

/-- What an id has behind the family's name. -/
def suffix? (f : Family) (id : String) : Option (List Char) :=
  if f.idPrefix <+: id.toList then some (id.toList.drop f.idPrefix.length) else none

/-- The number that an id adds to `max_seen`, where `int` does not refuse it. -/
def sequenceOf (f : Family) (id : String) : Option ℕ :=
  match suffix? f id with
  | none => some 0
  | some text => if text ≠ [] ∧ text.all u.isDigit then intOf u 0 text else some 0

/-- The id of an item, `""` if it has none. -/
def idOf (item : Mapping) : String :=
  match item.get? "id" with
  | some (.str id) => id
  | _ => ""

/-- `_max_existing_sequence` of the loaded items. -/
def maxExistingSequence (f : Family) : List Mapping → Option ℕ
  | [] => some 0
  | item :: rest => do
      let n ← sequenceOf u f (idOf item)
      let m ← maxExistingSequence f rest
      return max n m

/-! ### Reading a number back -/

theorem suffix?_mintedId (f : Family) (n : ℕ) :
    suffix? f (mintedId f n) = some (paddedDigits n) := by
  unfold suffix? mintedId
  rw [String.toList_ofList, if_pos (List.prefix_append _ _), List.drop_left]

theorem intOf_append (n : ℕ) (xs ys : List Char) :
    intOf u n (xs ++ ys) = (intOf u n xs).bind fun m => intOf u m ys := by
  induction xs generalizing n with
  | nil => rfl
  | cons c rest ih =>
    rw [List.cons_append, intOf, intOf]
    cases u.decimal? c with
    | none => rfl
    | some d => exact ih _

theorem intOf_zeros (k : ℕ) : intOf u 0 (List.replicate k '0') = some 0 := by
  induction k with
  | zero => rfl
  | succ k ih =>
    have hzero : u.decimal? '0' = some 0 := (u.ascii 0 (by decide)).2
    rw [List.replicate_succ, intOf, hzero]
    exact ih

theorem intOf_toDigits (n : ℕ) : intOf u 0 (Nat.toDigits 10 n) = some n := by
  induction n using Nat.strongRecOn with
  | ind n ih =>
    by_cases hn : n < 10
    · rw [Nat.toDigits_of_lt_base hn, intOf, (u.ascii n hn).2]
      show some (10 * 0 + n) = some n
      rw [Nat.mul_zero, Nat.zero_add]
    · have hlast := u.ascii (n % 10) (Nat.mod_lt n (by decide))
      rw [Nat.toDigits_of_base_le (by decide) (Nat.le_of_not_lt hn), intOf_append,
        ih (n / 10) (Nat.div_lt_self (by omega) (by decide)), Option.bind_some, intOf, hlast.2]
      show some (10 * (n / 10) + n % 10) = some n
      rw [Nat.div_add_mod]

theorem intOf_paddedDigits (n : ℕ) : intOf u 0 (paddedDigits n) = some n := by
  unfold paddedDigits
  rw [intOf_append, intOf_zeros, Option.bind_some, intOf_toDigits]

theorem isDigit_toDigits (n : ℕ) : ∀ c ∈ Nat.toDigits 10 n, u.isDigit c = true := by
  induction n using Nat.strongRecOn with
  | ind n ih =>
    intro c hc
    by_cases hn : n < 10
    · rw [Nat.toDigits_of_lt_base hn] at hc
      rw [List.mem_singleton.mp hc]
      exact (u.ascii n hn).1
    · rw [Nat.toDigits_of_base_le (by decide) (Nat.le_of_not_lt hn)] at hc
      rcases List.mem_append.mp hc with hinit | hlast
      · exact ih (n / 10) (Nat.div_lt_self (by omega) (by decide)) c hinit
      · rw [List.mem_singleton.mp hlast]
        exact (u.ascii (n % 10) (Nat.mod_lt n (by decide))).1

theorem paddedDigits_ne_nil (n : ℕ) : paddedDigits n ≠ [] := by
  intro hnil
  exact Nat.toDigits_ne_nil (List.append_eq_nil_iff.mp hnil).2

theorem all_isDigit_paddedDigits (n : ℕ) : (paddedDigits n).all u.isDigit = true := by
  rw [List.all_eq_true]
  intro c hc
  rcases List.mem_append.mp hc with hzero | hdigit
  · rw [List.eq_of_mem_replicate hzero]
    exact (u.ascii 0 (by decide)).1
  · exact isDigit_toDigits u n c hdigit

/-- **A minted id has its number.** -/
theorem sequenceOf_mintedId (f : Family) (n : ℕ) : sequenceOf u f (mintedId f n) = some n := by
  unfold sequenceOf
  rw [suffix?_mintedId]
  simp only
  rw [if_pos ⟨paddedDigits_ne_nil n, all_isDigit_paddedDigits u n⟩, intOf_paddedDigits]

/-- The digits that `str.isdigit` and `int` agree on. -/
def asciiDigits : Digits where
  isDigit c := '0' ≤ c && c ≤ '9'
  decimal? c := if '0' ≤ c ∧ c ≤ '9' then some (c.toNat - 48) else none
  ascii := by decide

theorem idPrefix_append_inj : ∀ {f g : Family} {xs ys : List Char},
    f.idPrefix ++ xs = g.idPrefix ++ ys → f = g := by
  intro f g xs ys h
  cases f <;> cases g <;> first | rfl | (simp [Family.idPrefix, Family.name] at h)

/-- **Minted ids differ.** -/
theorem mintedId_inj {f g : Family} {n m : ℕ} (h : mintedId f n = mintedId g m) :
    f = g ∧ n = m := by
  obtain rfl := idPrefix_append_inj (String.ofList_injective h)
  have hn := sequenceOf_mintedId asciiDigits f n
  rw [h, sequenceOf_mintedId] at hn
  exact ⟨rfl, (Option.some.inj hn).symm⟩

theorem mintedId_ne_empty (f : Family) (n : ℕ) : mintedId f n ≠ "" := by
  intro h
  have hnil : f.idPrefix ++ paddedDigits n = [] :=
    (String.toList_ofList).symm.trans (congrArg String.toList h)
  exact paddedDigits_ne_nil n (List.append_eq_nil_iff.mp hnil).2

theorem le_maxExistingSequence {f : Family} {items : List Mapping} {m : ℕ}
    (h : maxExistingSequence u f items = some m) {n : ℕ}
    (hmem : mintedId f n ∈ items.map idOf) : n ≤ m := by
  induction items generalizing m with
  | nil => cases hmem
  | cons item rest ih =>
    unfold maxExistingSequence at h
    obtain ⟨first, hfirst, h⟩ := Option.bind_eq_some_iff.mp h
    obtain ⟨others, hothers, h⟩ := Option.bind_eq_some_iff.mp h
    cases h
    rcases List.mem_cons.mp hmem with hid | hrest
    · rw [← hid, sequenceOf_mintedId] at hfirst
      cases hfirst
      exact Nat.le_max_left _ _
    · exact (ih hothers hrest).trans (Nat.le_max_right _ _)

end GoalFlight.Tasks
