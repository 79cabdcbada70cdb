import Mathlib.Data.List.Nodup

/-!
# Dictionaries written as pairs

A dictionary is the list of the pairs that were put there, one after the other; the last pair
of a key is its value.  So `{**a, **b}` is `a ++ b`, and a dictionary comprehension is the
list of what it runs through.

`get?_eq_some_iff` reads a dictionary without repeated keys as the relation of its pairs.
-/

namespace Dictionary

variable {α β : Type} [DecidableEq α]

/-- `pairs.get(key)`. -/
def get? (pairs : List (α × β)) (key : α) : Option β := pairs.reverse.lookup key

/-- `pairs.items()`: a key stands where it was put first, with its last value. -/
def items (pairs : List (α × β)) : List (α × β) :=
  (pairs.map Prod.fst).eraseDups.filterMap fun key => (get? pairs key).map fun v => (key, v)

variable {pairs more : List (α × β)} {key : α} {v : β}

theorem get?_append : get? (pairs ++ more) key = (get? more key).or (get? pairs key) := by
  unfold get?
  rw [List.reverse_append, List.lookup_append]

theorem get?_singleton (pair : α × β) :
    get? [pair] key = if key = pair.1 then some pair.2 else none := by
  unfold get?
  rw [List.reverse_singleton, List.lookup_cons, List.lookup_nil]
  by_cases hkey : key = pair.1
  · rw [beq_iff_eq.mpr hkey, if_pos hkey]
  · rw [beq_eq_false_iff_ne.mpr hkey, if_neg hkey]

theorem get?_cons (pair : α × β) : get? (pair :: more) key =
    (get? more key).or (if key = pair.1 then some pair.2 else none) := by
  rw [← List.singleton_append, get?_append, get?_singleton]

theorem get?_eq_none_iff : get? pairs key = none ↔ key ∉ pairs.map Prod.fst := by
  unfold get?
  rw [List.lookup_eq_none_iff]
  constructor
  · intro h hmem
    obtain ⟨⟨k, v⟩, hpair, rfl⟩ := List.mem_map.mp hmem
    exact bne_iff_ne.mp (h _ (List.mem_reverse.mpr hpair)) rfl
  · rintro h ⟨k, v⟩ hpair
    refine bne_iff_ne.mpr ?_
    rintro rfl
    exact h (List.mem_map.mpr ⟨_, List.mem_reverse.mp hpair, rfl⟩)

theorem isSome_get?_iff : (get? pairs key).isSome = true ↔ key ∈ pairs.map Prod.fst := by
  rw [← not_iff_not, ← get?_eq_none_iff, Bool.not_eq_true, Option.isSome_eq_false_iff,
    Option.isNone_iff_eq_none]

theorem mem_of_get? (h : get? pairs key = some v) : (key, v) ∈ pairs := by
  obtain ⟨before, after, hsplit, -⟩ := List.lookup_eq_some_iff.mp h
  apply List.mem_reverse.mp
  rw [hsplit]
  exact List.mem_append_right _ List.mem_cons_self

/-- **Without repeated keys**, a dictionary is the relation of its pairs. -/
theorem get?_eq_some_iff (hnodup : (pairs.map Prod.fst).Nodup) :
    get? pairs key = some v ↔ (key, v) ∈ pairs := by
  refine ⟨mem_of_get?, fun hmem => ?_⟩
  have hkey : (get? pairs key).isSome = true :=
    isSome_get?_iff.mpr (List.mem_map.mpr ⟨_, hmem, rfl⟩)
  obtain ⟨other, hother⟩ := Option.isSome_iff_exists.mp hkey
  have heq := List.inj_on_of_nodup_map hnodup (mem_of_get? hother) hmem rfl
  rw [hother, (Prod.mk.inj heq).2]

theorem eraseDups_of_nodup {xs : List α} (h : xs.Nodup) : xs.eraseDups = xs := by
  induction xs with
  | nil => rfl
  | cons x rest ih =>
    obtain ⟨hx, hrest⟩ := List.nodup_cons.mp h
    have hfilter : (rest.filter fun y => !y == x) = rest := by
      apply List.filter_eq_self.mpr
      intro y hy
      rw [Bool.not_eq_true', beq_eq_false_iff_ne]
      rintro rfl
      exact hx hy
    rw [List.eraseDups_cons, hfilter, ih hrest]

theorem get?_map {γ : Type} (f : β → γ) :
    get? (pairs.map fun pair => (pair.1, f pair.2)) key = (get? pairs key).map f := by
  unfold get?
  rw [← List.map_reverse]
  induction pairs.reverse with
  | nil => rfl
  | cons pair rest ih =>
    rw [List.map_cons, List.lookup_cons, List.lookup_cons, ih]
    cases key == pair.1 <;> rfl

theorem mem_of_mem_items {entry : α × β} (h : entry ∈ items pairs) : entry ∈ pairs := by
  obtain ⟨key, -, hentry⟩ := List.mem_filterMap.mp h
  obtain ⟨v, hv, rfl⟩ := Option.map_eq_some_iff.mp hentry
  exact mem_of_get? hv

theorem mem_keys_items : key ∈ (items pairs).map Prod.fst ↔ key ∈ pairs.map Prod.fst := by
  constructor
  · intro h
    obtain ⟨entry, hentry, rfl⟩ := List.mem_map.mp h
    exact List.mem_map.mpr ⟨entry, mem_of_mem_items hentry, rfl⟩
  · intro h
    obtain ⟨v, hv⟩ := Option.isSome_iff_exists.mp (isSome_get?_iff.mpr h)
    refine List.mem_map.mpr ⟨(key, v), ?_, rfl⟩
    exact List.mem_filterMap.mpr ⟨key, List.mem_eraseDups.mpr h, by rw [hv]; rfl⟩

theorem items_of_nodup (hnodup : (pairs.map Prod.fst).Nodup) : items pairs = pairs := by
  unfold items
  rw [eraseDups_of_nodup hnodup, List.filterMap_map]
  have hsame : ∀ pair ∈ pairs, ((fun key => (get? pairs key).map fun v => (key, v)) ∘ Prod.fst)
      pair = some pair := by
    rintro ⟨key, v⟩ hpair
    rw [Function.comp_apply, (get?_eq_some_iff hnodup).mpr hpair]
    rfl
  rw [List.filterMap_congr hsame, List.filterMap_some]

end Dictionary
