import GoalFlight.Library.JsonCut

/-!
# Documents and their texts

What the decoder reads is a document: its objects have distinct keys.  What the encoder
writes has a wide character exactly where a string of the document has it.
-/

namespace Json

variable {c : Char} {s : Config} {key : String} {text : List Char} {stack : List Frame}
  {v : Value} {s' : Config} {chars : List Char}

/-! ### What is read is a document -/

/-- The values of an open container are documents. -/
def Frame.WellFormed : Frame → Prop
  | .items xs => wellFormedItems xs = true
  | .fields fs => (Value.obj fs).wellFormed = true
  | .field fs _ => (Value.obj fs).wellFormed = true

/-- The value a mode holds is a document. -/
def Mode.WellFormed : Mode → Prop
  | .word _ v => v.wellFormed = true
  | .done v => v.wellFormed = true
  | _ => True

/-- Every value the machine holds is a document. -/
structure Config.WellFormed (s : Config) : Prop where
  mode : s.mode.WellFormed
  stack : ∀ frame ∈ s.stack, frame.WellFormed

theorem wellFormedItems_append {xs ys : List Value} (hxs : wellFormedItems xs = true)
    (hys : wellFormedItems ys = true) : wellFormedItems (xs ++ ys) = true := by
  induction xs with
  | nil => exact hys
  | cons v rest ih =>
    rw [wellFormedItems, Bool.and_eq_true] at hxs
    rw [List.cons_append, wellFormedItems, hxs.1, ih hxs.2]
    rfl

theorem numberValue_wellFormed (h : numberValue text = some v) :
    v.wellFormed = true := by
  unfold numberValue at h
  split at h
  · cases h
    rfl
  · split at h
    · cases h
      rfl
    · cases h

theorem complete_wellFormed (hstack : ∀ frame ∈ stack, frame.WellFormed)
    (hv : v.wellFormed = true) (h : complete stack v = some s) : s.WellFormed := by
  unfold complete at h
  split at h
  · cases h
    exact ⟨hv, hstack⟩
  · rename_i xs rest
    cases h
    obtain ⟨hxs, hrest⟩ := List.forall_mem_cons.mp hstack
    refine ⟨trivial, List.forall_mem_cons.mpr ⟨?_, hrest⟩⟩
    apply wellFormedItems_append hxs
    rw [wellFormedItems, hv]
    rfl
  · rename_i fs key rest
    cases h
    obtain ⟨hfs, hrest⟩ := List.forall_mem_cons.mp hstack
    refine ⟨trivial, List.forall_mem_cons.mpr ⟨?_, hrest⟩⟩
    exact (Mapping.set ⟨fs, hfs⟩ key ⟨v, hv⟩).2
  · cases h

theorem completeString_wellFormed (hstack : ∀ frame ∈ stack, frame.WellFormed)
    (h : completeString stack chars = some s) :
    s.WellFormed := by
  unfold completeString at h
  split at h
  · cases h
    obtain ⟨hfs, hrest⟩ := List.forall_mem_cons.mp hstack
    exact ⟨trivial, List.forall_mem_cons.mpr ⟨hfs, hrest⟩⟩
  · exact complete_wellFormed hstack rfl h

theorem stepAfter_wellFormed (hs : s.WellFormed) (h : stepAfter s c = some s') :
    s'.WellFormed := by
  obtain ⟨mode, stack⟩ := s
  obtain ⟨hmode, hstack⟩ := hs
  unfold stepAfter at h
  split at h
  · split at h
    · cases h
      exact ⟨hmode, hstack⟩
    · cases h
  · rename_i hstack_eq
    obtain rfl := hstack_eq
    obtain ⟨hxs, hrest⟩ := List.forall_mem_cons.mp hstack
    split at h
    · cases h
      exact ⟨hmode, hstack⟩
    split at h
    · cases h
      exact ⟨trivial, hstack⟩
    split at h
    · exact complete_wellFormed (v := .arr _) hrest (by rw [Value.wellFormed]; exact hxs) h
    · cases h
  · rename_i hstack_eq
    obtain rfl := hstack_eq
    obtain ⟨hfs, hrest⟩ := List.forall_mem_cons.mp hstack
    split at h
    · cases h
      exact ⟨hmode, hstack⟩
    split at h
    · cases h
      exact ⟨trivial, hstack⟩
    split at h
    · exact complete_wellFormed hrest hfs h
    · cases h
  · cases h

section

variable (hstack : ∀ frame ∈ stack, frame.WellFormed)
include hstack

theorem stepValue_wellFormed (h : stepValue stack c = some s) : s.WellFormed := by
  have hopened : ∀ {mode : Mode} {frame : Frame}, mode.WellFormed → frame.WellFormed →
      Config.WellFormed ⟨mode, frame :: stack⟩ :=
    fun hmode hframe => ⟨hmode, List.forall_mem_cons.mpr ⟨hframe, hstack⟩⟩
  unfold stepValue at h
  split at h
  · cases h
    exact ⟨trivial, hstack⟩
  split at h
  · cases h
    exact ⟨trivial, hstack⟩
  split at h
  · cases h
    exact hopened trivial rfl
  split at h
  · cases h
    exact hopened trivial rfl
  split at h
  · cases h
    exact ⟨trivial, hstack⟩
  -- The five literals.
  iterate 5
    split at h
    · cases h
      exact ⟨rfl, hstack⟩
  cases h

theorem stepEscape_wellFormed (h : stepEscape stack chars c = some s) :
    s.WellFormed := by
  unfold stepEscape at h
  iterate 7
    split at h
    · cases h
      exact ⟨trivial, hstack⟩
  cases h

theorem completeHex_wellFormed {high : Option ℕ} {code : ℕ}
    (h : completeHex stack chars high code = some s) :
    s.WellFormed := by
  unfold completeHex at h
  split at h
  · split at h
    · cases h
      exact ⟨trivial, hstack⟩
    split at h
    · cases h
    · cases h
      exact ⟨trivial, hstack⟩
  · split at h
    · cases h
      exact ⟨trivial, hstack⟩
    · cases h

end

theorem step_wellFormed (hs : s.WellFormed) (h : step s c = some s') :
    s'.WellFormed := by
  obtain ⟨mode, stack⟩ := s
  obtain ⟨hmode, hstack⟩ := hs
  have htail : ∀ frame ∈ stack.tail, frame.WellFormed :=
    fun frame hframe => hstack frame (List.mem_of_mem_tail hframe)
  cases mode with
  | value => exact stepValue_wellFormed hstack h
  | firstItem =>
    simp only [step] at h
    split at h
    · cases h
      exact ⟨hmode, hstack⟩
    split at h
    · exact complete_wellFormed htail rfl h
    · exact stepValue_wellFormed hstack h
  | firstKey =>
    simp only [step] at h
    split at h
    · cases h
      exact ⟨hmode, hstack⟩
    split at h
    · cases h
      exact ⟨trivial, hstack⟩
    split at h
    · exact complete_wellFormed htail rfl h
    · cases h
  | key =>
    simp only [step] at h
    split at h
    · cases h
      exact ⟨hmode, hstack⟩
    split at h
    · cases h
      exact ⟨trivial, hstack⟩
    · cases h
  | colon =>
    simp only [step] at h
    split at h
    · cases h
      exact ⟨hmode, hstack⟩
    split at h
    · cases h
      exact ⟨trivial, hstack⟩
    · cases h
  | after => exact stepAfter_wellFormed ⟨hmode, hstack⟩ h
  | str chars =>
    simp only [step] at h
    split at h
    · exact completeString_wellFormed hstack h
    split at h
    · cases h
      exact ⟨trivial, hstack⟩
    split at h
    · cases h
    · cases h
      exact ⟨trivial, hstack⟩
  | escape chars => exact stepEscape_wellFormed hstack h
  | hex chars high digits =>
    simp only [step] at h
    split at h
    · cases h
    split at h
    · cases h
      exact ⟨trivial, hstack⟩
    · exact completeHex_wellFormed hstack h
  | low chars high backslash =>
    simp only [step] at h
    split at h
    · split at h
      · cases h
        exact ⟨trivial, hstack⟩
      · cases h
    · split at h
      · cases h
        exact ⟨trivial, hstack⟩
      · cases h
  | number text =>
    simp only [step] at h
    split at h
    · cases h
      exact ⟨trivial, hstack⟩
    split at h
    · cases h
      exact ⟨rfl, hstack⟩
    split at h
    · cases h
    · -- The number is complete, and the character comes after it.
      rename_i hcomplete
      obtain ⟨v, hv, hcomplete⟩ := Option.bind_eq_some_iff.mp hcomplete
      exact stepAfter_wellFormed
        (complete_wellFormed hstack (numberValue_wellFormed hv) hcomplete) h
  | word rest v =>
    simp only [step] at h
    split at h
    · cases h
    · split at h
      · exact complete_wellFormed hstack hmode h
      · cases h
    · split at h
      · cases h
        exact ⟨hmode, hstack⟩
      · cases h
  | done v => exact stepAfter_wellFormed ⟨hmode, hstack⟩ h

theorem run_wellFormed (hs : s.WellFormed) (h : run s text = some s') :
    s'.WellFormed := by
  induction text generalizing s with
  | nil =>
    cases h
    exact hs
  | cons c text ih =>
    obtain ⟨t, hstep, hrun⟩ := Option.bind_eq_some_iff.mp h
    exact ih (step_wellFormed hs hstep) hrun

/-- **What is read is a document.** -/
theorem loads_wellFormed (h : loads text = some v) :
    v.wellFormed = true := by
  obtain ⟨s, hrun, hfinish⟩ := Option.bind_eq_some_iff.mp h
  have hstart : start.WellFormed := by
    refine ⟨trivial, ?_⟩
    intro frame hframe
    cases hframe
  have hs := run_wellFormed hstart hrun
  unfold finish at hfinish
  split at hfinish
  · rename_i hmode
    cases hfinish
    have hdone := hs.mode
    rw [hmode] at hdone
    exact hdone
  · exact numberValue_wellFormed hfinish
  · cases hfinish

/-- The document a text reads as. -/
def loadsDocument (text : List Char) : Option Document :=
  match h : loads text with
  | none => none
  | some v => some ⟨v, loads_wellFormed h⟩

theorem loadsDocument_map (text : List Char) :
    (loadsDocument text).map Subtype.val = loads text := by
  unfold loadsDocument
  split
  · rename_i h
    exact h.symm
  · rename_i v h
    exact h.symm

theorem loadsDocument_dumps (v : Document) : loadsDocument (dumps v.1) = some v := by
  have hmap := loadsDocument_map (dumps v.1)
  rw [loads_dumps v.2] at hmap
  obtain ⟨w, hw, hval⟩ := Option.map_eq_some_iff.mp hmap
  rw [hw]
  exact congrArg some (Subtype.ext hval)

theorem loadsDocument_eq_none (h : loads text = none) :
    loadsDocument text = none := by
  have hmap := loadsDocument_map text
  rw [h] at hmap
  exact Option.map_eq_none_iff.mp hmap

/-! ### Mappings -/

/-- The fields of a document that is an object. -/
def mapping? : Document → Option Mapping
  | ⟨.obj fields, h⟩ => some ⟨fields, h⟩
  | _ => none

theorem mapping?_document (m : Mapping) : mapping? m.document = some m := rfl

namespace Mapping

/-- `mapping.get(key)`. -/
def get? (m : Mapping) (key : String) : Option Value := m.1.lookup key

/-- `mapping.setdefault(key, value)`. -/
def setDefault (m : Mapping) (key : String) (value : Document) : Mapping :=
  if (m.get? key).isSome then m else m.set key value

theorem get?_set (m : Mapping) (key : String) (value : Document) :
    (m.set key value).get? key = some value.1 :=
  lookup_setField m.1 key value.1

theorem get?_set_of_ne (m : Mapping) {other : String} (hne : other ≠ key) (value : Document) :
    (m.set key value).get? other = m.get? other :=
  lookup_setField_of_ne m.1 hne value.1

theorem get?_setDefault (m : Mapping) (key : String) (value : Document) :
    (m.setDefault key value).get? key = some ((m.get? key).getD value.1) := by
  unfold setDefault
  cases hkey : m.get? key with
  | none => exact get?_set m key value
  | some v => exact hkey

theorem get?_setDefault_of_ne (m : Mapping) {other : String} (hne : other ≠ key)
    (value : Document) : (m.setDefault key value).get? other = m.get? other := by
  unfold setDefault
  split
  · rfl
  · exact m.get?_set_of_ne hne value

theorem setDefault_eq_self {m : Mapping} (h : (m.get? key).isSome = true) (value : Document) :
    m.setDefault key value = m :=
  if_pos h

end Mapping

/-! ### Finite numbers -/

mutual

/-- Every number of the value is finite. -/
def Value.isFinite : Value → Bool
  | .nonFinite _ => false
  | .arr items => itemsFinite items
  | .obj fields => fieldsFinite fields
  | _ => true

def itemsFinite : List Value → Bool
  | [] => true
  | v :: rest => v.isFinite && itemsFinite rest

def fieldsFinite : List (String × Value) → Bool
  | [] => true
  | (_, v) :: rest => v.isFinite && fieldsFinite rest

end

/-! ### The wide characters of a text -/

mutual

/-- The character is in a string of the value, keys included. -/
def Value.mentions (c : Char) : Value → Bool
  | .str s => decide (c ∈ s.toList)
  | .arr items => itemsMention c items
  | .obj fields => fieldsMention c fields
  | _ => false

def itemsMention (c : Char) : List Value → Bool
  | [] => false
  | v :: rest => v.mentions c || itemsMention c rest

def fieldsMention (c : Char) : List (String × Value) → Bool
  | [] => false
  | (key, v) :: rest => decide (c ∈ key.toList) || v.mentions c || fieldsMention c rest

end

theorem Wide.not_isNumberChar (hc : Wide c) : isNumberChar c = false := by
  unfold isNumberChar
  rw [hc.not_isDigit]
  simp [hc.ne (d := '-') (by decide), hc.ne (d := '+') (by decide), hc.ne (d := '.') (by decide),
    hc.ne (d := 'e') (by decide), hc.ne (d := 'E') (by decide)]

theorem Wide.notMem_number (hc : Wide c) (h : NumberText text) :
    c ∉ text := by
  intro hmem
  have hnumber := h.chars c hmem
  rw [hc.not_isNumberChar] at hnumber
  cases hnumber

theorem ascii_digitChar : ∀ n < 16, (Nat.digitChar n).toNat < 128 := by decide

theorem Wide.mem_escapeChar_iff (hc : Wide c) (d : Char) :
    c ∈ escapeChar d ↔ c = d := by
  have hpair : ∀ e : Char, e.toNat < 128 → c ∉ ['\\', e] := by
    intro e he hmem
    rcases List.mem_cons.mp hmem with rfl | hlast
    · exact hc.ne (d := '\\') (by decide) rfl
    · exact hc.ne he (List.mem_singleton.mp hlast)
  have hascii : ∀ {escape : List Char}, d.toNat < 128 → c ∉ escape → (c ∈ escape ↔ c = d) :=
    fun hd hnot => ⟨fun hmem => absurd hmem hnot, fun heq => absurd heq (hc.ne hd)⟩
  unfold escapeChar
  split
  · rename_i hd
    exact hascii (by rw [hd]; decide) (hpair _ (by decide))
  split
  · rename_i hd
    exact hascii (by rw [hd]; decide) (hpair _ (by decide))
  split
  · rename_i hd
    exact hascii (by rw [hd]; decide) (hpair _ (by decide))
  split
  · rename_i hd
    exact hascii (by rw [hd]; decide) (hpair _ (by decide))
  split
  · rename_i hd
    exact hascii (by rw [hd]; decide) (hpair _ (by decide))
  split
  · exact hascii (by omega) (hpair _ (by decide))
  split
  · exact hascii (by omega) (hpair _ (by decide))
  split
  · apply hascii (by omega)
    intro hmem
    simp only [List.mem_cons, List.not_mem_nil, or_false] at hmem
    rcases hmem with heq | heq | heq | heq | heq | heq
    · exact hc.ne (by decide) heq
    · exact hc.ne (by decide) heq
    · exact hc.ne (by decide) heq
    · exact hc.ne (by decide) heq
    · exact hc.ne (ascii_digitChar _ (by omega)) heq
    · exact hc.ne (ascii_digitChar _ (by omega)) heq
  · exact List.mem_singleton

theorem Wide.mem_dumpsChars_iff (hc : Wide c) (text : List Char) :
    c ∈ dumpsChars text ↔ c ∈ text := by
  induction text with
  | nil =>
    show c ∈ ['"'] ↔ c ∈ []
    rw [List.mem_singleton]
    exact ⟨fun heq => absurd heq (hc.ne (by decide)), nofun⟩
  | cons d text ih =>
    rw [dumpsChars, List.mem_append, hc.mem_escapeChar_iff, ih, List.mem_cons]

theorem Wide.mem_dumpsString_iff (hc : Wide c) (s : String) :
    c ∈ dumpsString s ↔ c ∈ s.toList := by
  rw [dumpsString, List.mem_cons, hc.mem_dumpsChars_iff, or_iff_right (hc.ne (by decide))]

mutual

/-- **The wide characters of an encoded text** are those of the value's strings. -/
theorem Wide.mem_dumps_iff {c : Char} (hc : Wide c) :
    ∀ v : Value, c ∈ dumps v ↔ v.mentions c = true
  | .null | .bool true | .bool false | .nonFinite .nan | .nonFinite .infinity
  | .nonFinite .negInfinity | .arr [] | .obj [] => by
    simp [dumps, NonFinite.text, Value.mentions, itemsMention, fieldsMention, hc.ne]
  | .int n => by
    simp only [dumps, Value.mentions]
    exact ⟨fun hmem => absurd hmem (hc.notMem_number (numberText_intText n)),
      fun hfalse => absurd hfalse Bool.false_ne_true⟩
  | .float text => by
    simp only [dumps, Value.mentions]
    exact ⟨fun hmem => absurd hmem (hc.notMem_number (numberText_float text)),
      fun hfalse => absurd hfalse Bool.false_ne_true⟩
  | .str s => by
    rw [dumps, Value.mentions, hc.mem_dumpsString_iff, decide_eq_true_eq]
  | .arr (v :: rest) => by
    rw [dumps, Value.mentions, itemsMention, List.mem_cons, List.mem_append, Bool.or_eq_true,
      hc.mem_dumps_iff v, hc.mem_dumpsItems_iff rest, or_iff_right (hc.ne (by decide))]
  | .obj ((key, v) :: rest) => by
    rw [dumps, Value.mentions, fieldsMention, List.mem_cons, List.mem_append, List.mem_cons,
      List.mem_append, Bool.or_eq_true, Bool.or_eq_true, decide_eq_true_eq,
      hc.mem_dumpsString_iff, hc.mem_dumps_iff v, hc.mem_dumpsFields_iff rest,
      or_iff_right (hc.ne (by decide)), or_iff_right (a := c = ':') (hc.ne (by decide)), or_assoc]

theorem Wide.mem_dumpsItems_iff {c : Char} (hc : Wide c) :
    ∀ rest : List Value, c ∈ dumpsItems rest ↔ itemsMention c rest = true
  | [] => by
    simp [dumpsItems, itemsMention, hc.ne]
  | v :: rest => by
    rw [dumpsItems, itemsMention, List.mem_cons, List.mem_append, Bool.or_eq_true,
      hc.mem_dumps_iff v, hc.mem_dumpsItems_iff rest, or_iff_right (hc.ne (by decide))]

theorem Wide.mem_dumpsFields_iff {c : Char} (hc : Wide c) :
    ∀ rest : List (String × Value), c ∈ dumpsFields rest ↔ fieldsMention c rest = true
  | [] => by
    simp [dumpsFields, fieldsMention, hc.ne]
  | (key, v) :: rest => by
    rw [dumpsFields, fieldsMention, List.mem_cons, List.mem_append, List.mem_cons,
      List.mem_append, Bool.or_eq_true, Bool.or_eq_true, decide_eq_true_eq,
      hc.mem_dumpsString_iff, hc.mem_dumps_iff v, hc.mem_dumpsFields_iff rest,
      or_iff_right (hc.ne (by decide)), or_iff_right (a := c = ':') (hc.ne (by decide)), or_assoc]

end

theorem fieldsMention_setField_of_notMem {fields : List (String × Value)}
    (hnew : fields.lookup key = none) (v : Value) :
    fieldsMention c (setField fields key v) =
      (fieldsMention c fields || (decide (c ∈ key.toList) || v.mentions c)) := by
  induction fields with
  | nil =>
    simp only [setField, fieldsMention, Bool.or_false, Bool.false_or]
  | cons field rest ih =>
    obtain ⟨first, w⟩ := field
    rw [List.lookup_cons] at hnew
    split at hnew
    · cases hnew
    · rename_i hne
      rw [beq_eq_false_iff_ne] at hne
      rw [setField, if_neg (Ne.symm hne), fieldsMention, ih hnew, fieldsMention]
      simp only [Bool.or_assoc]

theorem Mapping.mentions_setDefault (m : Mapping) {value : Document} (hkey : c ∉ key.toList)
    (hvalue : value.1.mentions c = false) :
    (m.setDefault key value).document.1.mentions c = m.document.1.mentions c := by
  unfold Mapping.setDefault
  split
  · rfl
  · rename_i hnew
    show (Value.obj (setField m.1 key value.1)).mentions c = (Value.obj m.1).mentions c
    rw [Bool.not_eq_true, Option.isSome_eq_false_iff, Option.isNone_iff_eq_none] at hnew
    rw [Value.mentions, Value.mentions, fieldsMention_setField_of_notMem hnew,
      decide_eq_false hkey, hvalue, Bool.or_false, Bool.or_false]

end Json
