import GoalFlight.Library.JsonDocument

/-!
# Mappings that a program updates

The other operations on a mapping: a field removed, and an element appended to a field that
is an array.
-/

namespace Json

variable {key : String}

theorem wellFormed_of_lookup {fields : List (String × Value)}
    (h : wellFormedFields fields = true) {v : Value} (hv : fields.lookup key = some v) :
    v.wellFormed = true := by
  induction fields with
  | nil => cases hv
  | cons field rest ih =>
    rw [wellFormedFields, Bool.and_eq_true] at h
    rw [List.lookup_cons] at hv
    split at hv
    · cases hv
      exact h.1
    · exact ih h.2 hv

theorem wellFormedFields_filter {fields : List (String × Value)} (h : wellFormedFields fields = true)
    (p : String × Value → Bool) : wellFormedFields (fields.filter p) = true := by
  induction fields with
  | nil => rfl
  | cons field rest ih =>
    rw [wellFormedFields, Bool.and_eq_true] at h
    rw [List.filter_cons]
    split
    · rw [wellFormedFields, h.1, ih h.2]
      rfl
    · exact ih h.2

theorem lookup_filter_ne (fields : List (String × Value)) (key other : String) :
    (fields.filter fun field => field.1 ≠ key).lookup other =
      if other = key then none else fields.lookup other := by
  induction fields with
  | nil => split <;> rfl
  | cons field rest ih =>
    rw [List.filter_cons, List.lookup_cons]
    by_cases hkey : field.1 = key
    · rw [decide_eq_false (not_not.mpr hkey), if_neg Bool.false_ne_true, ih]
      split
      · rfl
      · rename_i hne
        rw [beq_eq_false_iff_ne.mpr (hkey ▸ hne)]
    · rw [decide_eq_true hkey, if_pos rfl, List.lookup_cons, ih]
      by_cases hother : other = key
      · rw [if_pos hother, if_pos hother, beq_eq_false_iff_ne.mpr (hother ▸ Ne.symm hkey)]
      · rw [if_neg hother, if_neg hother]

namespace Mapping

/-- `mapping.pop(key, None)`. -/
def pop (m : Mapping) (key : String) : Mapping :=
  ⟨m.1.filter fun field => field.1 ≠ key, by
    have hm := m.2
    rw [Value.wellFormed, Bool.and_eq_true, decide_eq_true_eq] at hm ⊢
    exact ⟨hm.1.sublist (List.filter_sublist.map Prod.fst), wellFormedFields_filter hm.2 _⟩⟩

theorem get?_pop (m : Mapping) (key other : String) :
    (m.pop key).get? other = if other = key then none else m.get? other :=
  lookup_filter_ne m.1 key other

theorem get?_pop_of_ne (m : Mapping) {other : String} (hne : other ≠ key) :
    (m.pop key).get? other = m.get? other := by
  rw [get?_pop, if_neg hne]

theorem wellFormed_get? {m : Mapping} {v : Value} (h : m.get? key = some v) :
    v.wellFormed = true := by
  have hm := m.2
  rw [Value.wellFormed, Bool.and_eq_true] at hm
  exact wellFormed_of_lookup hm.2 h

/-- `mapping.get(key)`, as a value that a program can hold. -/
def field (m : Mapping) (key : String) : Document :=
  match h : m.get? key with
  | none => ⟨.null, rfl⟩
  | some v => ⟨v, wellFormed_get? h⟩

theorem field_val (m : Mapping) (key : String) :
    (m.field key).1 = (m.get? key).getD .null := by
  unfold field
  split
  · rename_i hnone
    exact (congrArg (Option.getD · .null) hnone).symm
  · rename_i v hv
    exact (congrArg (Option.getD · .null) hv).symm

theorem get?_update_of_notMem (m : Mapping) {fields : List (String × Document)}
    (h : key ∉ fields.map Prod.fst) : (m.update fields).get? key = m.get? key := by
  unfold update
  induction fields generalizing m with
  | nil => rfl
  | cons field rest ih =>
    rw [List.map_cons, List.mem_cons, not_or] at h
    rw [List.foldl_cons, ih (m.set field.1 field.2) h.2, get?_set_of_ne m h.1]

theorem get?_update_of_mem (m : Mapping) {value : Document} {fields : List (String × Document)}
    (hnodup : (fields.map Prod.fst).Nodup) (h : (key, value) ∈ fields) :
    (m.update fields).get? key = some value.1 := by
  induction fields generalizing m with
  | nil => cases h
  | cons field rest ih =>
    obtain ⟨hfresh, hrest⟩ := List.nodup_cons.mp hnodup
    rcases List.mem_cons.mp h with rfl | hmem
    · exact ((m.set key value).get?_update_of_notMem hfresh).trans (get?_set m key value)
    · exact ih (m.set field.1 field.2) hrest hmem

theorem get?_foldl_pop (m : Mapping) {keys : List String} (h : key ∉ keys) :
    (keys.foldl pop m).get? key = m.get? key := by
  induction keys generalizing m with
  | nil => rfl
  | cons first rest ih =>
    rw [List.mem_cons, not_or] at h
    rw [List.foldl_cons, ih (m.pop first) h.2, get?_pop_of_ne m h.1]

/-- `mapping.setdefault(key, []).append(entry)`; nothing if the field is no array. -/
def push (m : Mapping) (key : String) (entry : Document) : Option Mapping :=
  match h : m.get? key with
  | none => some (m.set key ⟨.arr [entry.1], by
      rw [Value.wellFormed, wellFormedItems, entry.2]; rfl⟩)
  | some (.arr xs) => some (m.set key ⟨.arr (xs ++ [entry.1]), by
      have hxs := wellFormed_get? h
      rw [Value.wellFormed] at hxs ⊢
      apply wellFormedItems_append hxs
      rw [wellFormedItems, entry.2]
      rfl⟩)
  | some _ => none

theorem push_eq_some {m m' : Mapping} {entry : Document} (h : m.push key entry = some m') :
    (∃ xs, (m.get? key).getD (.arr []) = .arr xs ∧ m'.get? key = some (.arr (xs ++ [entry.1]))) ∧
      ∀ other, other ≠ key → m'.get? other = m.get? other := by
  unfold push at h
  split at h
  · rename_i hnone
    cases h
    exact ⟨⟨[], congrArg (Option.getD · _) hnone, get?_set _ _ _⟩,
      fun other hne => get?_set_of_ne _ hne _⟩
  · rename_i xs hxs
    cases h
    exact ⟨⟨xs, congrArg (Option.getD · _) hxs, get?_set _ _ _⟩,
      fun other hne => get?_set_of_ne _ hne _⟩
  · cases h

end Mapping

end Json
