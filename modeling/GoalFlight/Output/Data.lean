import GoalFlight.Library.JsonMapping
import GoalFlight.Output.Redact

/-!
# Output: redaction of documents

A status document goes to its file with every text in it redacted.  The keys stay, and so do the
numbers; a text that says something still does.
-/

namespace GoalFlight.Output

open Json
open Messages (isSpace)

/-! ### `redact_data` -/

/-- `redact_text`, of a string. -/
def redactString (s : String) : String := String.ofList (redactText s.toList)

mutual

/-- `redact_data`. -/
def redactValue : Value → Value
  | .str s => .str (redactString s)
  | .arr items => .arr (redactItems items)
  | .obj fields => .obj (redactFields fields)
  | v => v

def redactItems : List Value → List Value
  | [] => []
  | v :: rest => redactValue v :: redactItems rest

def redactFields : List (String × Value) → List (String × Value)
  | [] => []
  | (key, v) :: rest => (key, redactValue v) :: redactFields rest

end

theorem map_fst_redactFields (fields : List (String × Value)) :
    (redactFields fields).map Prod.fst = fields.map Prod.fst := by
  induction fields with
  | nil => rfl
  | cons field rest ih =>
    rw [redactFields, List.map_cons, List.map_cons, ih]

mutual

theorem wellFormed_redactValue : ∀ v : Value, v.wellFormed = true →
    (redactValue v).wellFormed = true
  | .arr items, h => wellFormedItems_redactItems items h
  | .obj fields, h => by
    rw [Value.wellFormed, Bool.and_eq_true] at h
    rw [redactValue, Value.wellFormed, map_fst_redactFields, h.1,
      wellFormedFields_redactFields fields h.2]
    rfl
  | .null, _ | .bool _, _ | .int _, _ | .float _, _ | .nonFinite _, _ | .str _, _ => rfl

theorem wellFormedItems_redactItems : ∀ items : List Value, wellFormedItems items = true →
    wellFormedItems (redactItems items) = true
  | [], _ => rfl
  | v :: rest, h => by
    rw [wellFormedItems, Bool.and_eq_true] at h
    rw [redactItems, wellFormedItems, wellFormed_redactValue v h.1,
      wellFormedItems_redactItems rest h.2]
    rfl

theorem wellFormedFields_redactFields : ∀ fields : List (String × Value),
    wellFormedFields fields = true → wellFormedFields (redactFields fields) = true
  | [], _ => rfl
  | (key, v) :: rest, h => by
    rw [wellFormedFields, Bool.and_eq_true] at h
    rw [redactFields, wellFormedFields, wellFormed_redactValue v h.1,
      wellFormedFields_redactFields rest h.2]
    rfl

end

/-- `redact_data`, of a mapping. -/
def redactMapping (m : Mapping) : Mapping :=
  ⟨redactFields m.1, wellFormed_redactValue (.obj m.1) m.2⟩

@[simp] theorem get?_redactMapping (m : Mapping) (key : String) :
    (redactMapping m).get? key = (m.get? key).map redactValue := by
  show (redactFields m.1).lookup key = (m.1.lookup key).map redactValue
  induction m.1 with
  | nil => rfl
  | cons field rest ih =>
    obtain ⟨other, v⟩ := field
    rw [redactFields, List.lookup_cons, List.lookup_cons]
    split
    · rfl
    · exact ih

/-! ### What is left of a text -/

/-- **A text that says something still does.** -/
theorem exists_not_isSpace_redactText {text : List Char} (h : ∃ c ∈ text, isSpace c = false) :
    ∃ c ∈ redactText text, isSpace c = false := by
  induction text with
  | nil =>
    obtain ⟨c, hc, -⟩ := h
    cases hc
  | cons first rest ih =>
    by_cases hmatch : secretShape.matchLength (first :: rest) = 0
    · unfold redactText
      rw [Substitution.Pattern.sub_cons_of_no_match hmatch]
      obtain ⟨c, hc, hspace⟩ := h
      rcases List.mem_cons.mp hc with rfl | hrest
      · exact ⟨c, List.mem_cons_self, hspace⟩
      · obtain ⟨d, hd, hdspace⟩ := ih ⟨c, hrest, hspace⟩
        exact ⟨d, List.mem_cons_of_mem _ hd, hdspace⟩
    · -- the marker stands for the credential
      unfold redactText
      rw [Substitution.Pattern.sub_of_match (Nat.pos_of_ne_zero hmatch)]
      exact ⟨'[', List.mem_append_left _ (by decide), by decide⟩

example : redactString "key xai-0123456789abcdefghij." = "key [redacted]." := by decide +kernel

end GoalFlight.Output
