import GoalFlight.Tasks.Items

/-!
# Written items, read back

What `_validate_items_for_write` accepts, `_parse_jsonl` accepts as well, with nothing left
to fill in.  What it gets to see depends on the line ends in the text: an item with one of
the three wide line ends in a string is cut inside the string, and its first part is no JSON
text.
-/

namespace GoalFlight.Tasks

open Json Utf8

variable {lineno : ℕ} {c : Char} {itemId source : String} {item : Mapping} {text : List Char}
  {items written : List Mapping} {seen : List (String × ℕ)}

/-! ### The items that are written -/

/-- What the writer has checked of an item. -/
structure Stored (itemId : String) (item : Mapping) : Prop where
  id : itemId? item = some itemId
  status : item.get? "status" = none
  lane : (item.get? "lane").any (!isStr ·) = false
  blockedBy : (item.get? "blocked_by").any isList = true
  links : (item.get? "links").isSome = true
  done : (item.get? "done").isSome = true
  version : (item.get? "schema_version").any isVersion = true
  dispatches : (item.get? "dispatches").any (!isList ·) = false

/-- The keys that the writer fills in. -/
def filledKeys : List String := ["blocked_by", "links", "done", "done_reviewed", "schema_version"]

theorem get?_reviewLegacy_of_ne (legacy : Bool) (item : Mapping) {key : String}
    (hne : key ≠ "done_reviewed") : (reviewLegacy legacy item).get? key = item.get? key := by
  unfold reviewLegacy
  split
  · exact item.get?_setDefault_of_ne hne _
  · rfl

theorem get?_fillItemForWrite {key : String} (h : key ∉ filledKeys) :
    (fillItemForWrite item).get? key = item.get? key := by
  have hne : ∀ filled ∈ filledKeys, key ≠ filled := by
    rintro filled hmem rfl
    exact h hmem
  unfold fillItemForWrite
  rw [Mapping.get?_setDefault_of_ne _ (hne "schema_version" (by decide)),
    get?_reviewLegacy_of_ne _ _ (hne "done_reviewed" (by decide)),
    Mapping.get?_setDefault_of_ne _ (hne "done" (by decide)),
    Mapping.get?_setDefault_of_ne _ (hne "links" (by decide)),
    Mapping.get?_setDefault_of_ne _ (hne "blocked_by" (by decide))]

theorem done_fillItemForWrite (item : Mapping) :
    ((fillItemForWrite item).get? "done").isSome = true := by
  unfold fillItemForWrite
  rw [Mapping.get?_setDefault_of_ne _ (by decide), get?_reviewLegacy_of_ne _ _ (by decide),
    Mapping.get?_setDefault]
  rfl

theorem isSome_of_any {o : Option Value} {p : Value → Bool} (h : o.any p = true) :
    o.isSome = true := by
  obtain ⟨v, hv, -⟩ := (Option.any_eq_true _ _).mp h
  rw [hv]
  rfl

theorem validateItemForWrite_eq_ok {value : Document} {filled : Mapping}
    (h : validateItemForWrite source lineno seen value = .ok (itemId, filled)) :
    Stored itemId filled ∧ seen.lookup itemId = none ∧
      ∃ item, mapping? value = some item ∧ filled = fillItemForWrite item := by
  unfold validateItemForWrite at h
  split at h
  · cases h
  rename_i item hitem
  split at h
  · cases h
  rename_i id hid
  split at h
  · cases h
  rename_i hstatus
  split at h
  · cases h
  rename_i hlane
  split at h
  · cases h
  rename_i hseen
  simp only at h
  split at h
  · cases h
  rename_i hblocked
  split at h
  · cases h
  rename_i hlinks
  split at h
  · cases h
  rename_i hversion
  split at h
  · cases h
  rename_i hdispatches
  obtain ⟨rfl, rfl⟩ := Prod.mk.inj (Except.ok.inj h)
  simp only [Bool.not_eq_true, Bool.not_eq_false, Bool.not_eq_true', Option.isSome_eq_false_iff,
    Option.isNone_iff_eq_none] at hstatus hlane hblocked hlinks hversion hdispatches
  refine ⟨⟨?_, ?_, ?_, hblocked, isSome_of_any hlinks, done_fillItemForWrite item, hversion,
    hdispatches⟩, hseen, item, hitem, rfl⟩
  · unfold itemId?
    rw [get?_fillItemForWrite (by decide)]
    exact hid
  · rw [get?_fillItemForWrite (by decide)]
    exact hstatus
  · rw [get?_fillItemForWrite (by decide)]
    exact hlane

/-! ### The items that are read -/

theorem Stored.migrateItemForRead_eq (h : Stored itemId item) :
    migrateItemForRead item = item := by
  have hpresent : (item.get? "schema_version").isNone = false := by
    obtain ⟨v, hv, -⟩ := (Option.any_eq_true _ _).mp h.version
    rw [hv]
    rfl
  unfold migrateItemForRead
  simp only
  rw [if_pos h.version, Mapping.setDefault_eq_self (isSome_of_any h.blockedBy),
    Mapping.setDefault_eq_self h.links, Mapping.setDefault_eq_self h.done, hpresent]
  rfl

theorem Stored.parseItem_eq (h : Stored itemId item) (path : String) (lineno : ℕ)
    {linesById : List (String × ℕ)} (hnew : linesById.lookup itemId = none) :
    parseItem path lineno linesById item = .ok (itemId, item) := by
  obtain ⟨blockedBy, hblocked, hlist⟩ := (Option.any_eq_true _ _).mp h.blockedBy
  unfold parseItem
  rw [h.id]
  simp only
  rw [h.status, if_neg (by decide), h.lane, if_neg (by decide), hnew, h.migrateItemForRead_eq]
  simp only
  rw [hblocked, Option.getD_some, hlist, if_neg (by decide)]
  cases hdispatches : item.get? "dispatches" with
  | none => rfl
  | some dispatches =>
    have hlist := h.dispatches
    rw [hdispatches, Option.any_some, Bool.not_eq_false'] at hlist
    simp only
    rw [if_pos hlist]

theorem dumps_not_blank {p q : List Char} (hp : p ≠ []) (h : dumps item.document.1 = p ++ q) :
    p.all Messages.isSpace = false := by
  obtain ⟨text, htext⟩ := dumps_obj_head item.1
  have hdumps : p ++ q = '{' :: text := h.symm.trans htext
  obtain ⟨c, rest, rfl⟩ := List.exists_cons_of_ne_nil hp
  obtain ⟨rfl, -⟩ := List.cons.inj hdumps
  rfl

/-- **A whole line.** -/
theorem Stored.parseLine_eq (h : Stored itemId item) (path : String) (lineno : ℕ)
    {linesById : List (String × ℕ)} (hnew : linesById.lookup itemId = none) :
    parseLine path lineno linesById (dumps item.document.1) = .ok (some (itemId, item)) := by
  have hne : dumps item.document.1 ≠ [] := by
    obtain ⟨text, htext⟩ := dumps_obj_head item.1
    intro hnil
    exact List.cons_ne_nil _ _ (htext.symm.trans hnil)
  unfold parseLine
  rw [dumps_not_blank hne (List.append_nil _).symm, if_neg Bool.false_ne_true,
    loadsDocument_dumps]
  simp only
  rw [mapping?_document]
  simp only
  rw [h.parseItem_eq path lineno hnew]
  rfl

/-- **A cut line.**  The text before a wide character is no line of the store. -/
theorem parseLine_cut (path : String) (lineno : ℕ) (linesById : List (String × ℕ))
    {p q : List Char} (hc : Wide c) (h : dumps item.document.1 = p ++ c :: q) :
    parseLine path lineno linesById p = lineError path lineno "invalid JSON" := by
  have hne : p ≠ [] := by
    rintro rfl
    obtain ⟨text, htext⟩ := dumps_obj_head item.1
    have hdumps : '{' :: text = c :: q := htext.symm.trans h
    exact hc.ne (d := '{') (by decide) (List.cons.inj hdumps).1.symm
  unfold parseLine
  rw [dumps_not_blank hne h, if_neg Bool.false_ne_true,
    loadsDocument_eq_none (loads_before_wide item.document.2 hc h)]

/-! ### The text of the store -/

/-- The strings of a value have no line end above ASCII. -/
def OneLine (v : Value) : Prop := ∀ c ∈ lineSeparators, v.mentions c = false

instance (v : Value) : Decidable (OneLine v) :=
  inferInstanceAs (Decidable (∀ c ∈ lineSeparators, v.mentions c = false))

theorem wide_of_mem_lineSeparators : ∀ c ∈ lineSeparators, Wide c := by
  unfold Wide
  decide

theorem isBreak_lineSeparator (hc : c ∈ lineSeparators) :
    strBreaks.isBreak c = true := by
  show (_ || decide (c ∈ lineSeparators)) = true
  rw [decide_eq_true hc, Bool.or_true]

theorem isBreak_dumps {v : Value} (hc : c ∈ dumps v) (h : c ∉ lineSeparators) :
    strBreaks.isBreak c = false := by
  have hlow := dumps_noControl v c hc
  show ((decide (10 ≤ c.toNat) && decide (c.toNat ≤ 13)) ||
    (decide (28 ≤ c.toNat) && decide (c.toNat ≤ 30)) || decide (c ∈ lineSeparators)) = false
  rw [decide_eq_false h, Bool.or_false, decide_eq_false (p := c.toNat ≤ 13) (by omega),
    decide_eq_false (p := c.toNat ≤ 30) (by omega), Bool.and_false, Bool.and_false]
  rfl

theorem dumps_lines (v : Value) :
    (OneLine v ∧ ∀ c ∈ dumps v, strBreaks.isBreak c = false) ∨
    (¬OneLine v ∧ ∃ p c q, dumps v = p ++ c :: q ∧ c ∈ lineSeparators ∧
      ∀ a ∈ p, strBreaks.isBreak a = false) := by
  by_cases hsep : ∃ c ∈ dumps v, c ∈ lineSeparators
  · right
    obtain ⟨c, hc, hmem⟩ := hsep
    refine ⟨?_, ?_⟩
    · intro hline
      have hmention := ((wide_of_mem_lineSeparators c hmem).mem_dumps_iff v).mp hc
      rw [hline c hmem] at hmention
      cases hmention
    · -- The first of the line ends.
      have hfind : ((dumps v).find? (· ∈ lineSeparators)).isSome = true :=
        List.find?_isSome.mpr ⟨c, hc, decide_eq_true hmem⟩
      obtain ⟨d, hd⟩ := Option.isSome_iff_exists.mp hfind
      obtain ⟨hsepd, p, q, hcut, hbefore⟩ := List.find?_eq_some_iff_append.mp hd
      refine ⟨p, d, q, hcut, of_decide_eq_true hsepd, ?_⟩
      intro a ha
      apply isBreak_dumps (v := v)
      · rw [hcut]
        exact List.mem_append_left _ ha
      · have hnot := hbefore a ha
        rw [Bool.not_eq_true'] at hnot
        exact of_decide_eq_false hnot
  · left
    push Not at hsep
    refine ⟨?_, fun c hc => isBreak_dumps hc (hsep c hc)⟩
    intro c hc
    rw [Bool.eq_false_iff]
    intro hmention
    exact hsep c (((wide_of_mem_lineSeparators c hc).mem_dumps_iff v).mpr hmention) hc

theorem universalNewlines_eq_self (h : '\r' ∉ text) :
    universalNewlines text = text := by
  induction text with
  | nil => rfl
  | cons c rest ih =>
    rw [List.mem_cons, not_or] at h
    rw [universalNewlines, if_neg (Ne.symm h.1), ih h.2]
    rintro rest' hc
    exact absurd hc.symm h.1

theorem itemsJsonl_eq_ok (h : itemsJsonl items = .ok text) :
    text = Lines.Breaks.join '\n' (items.map fun item => dumps item.document.1) := by
  induction items generalizing text with
  | nil => exact (Except.ok.inj h).symm
  | cons item rest ih =>
    unfold itemsJsonl at h
    cases hline : itemJsonLine item with
    | error e =>
      rw [hline] at h
      cases h
    | ok line =>
      cases hmore : itemsJsonl rest with
      | error e =>
        rw [hline, hmore] at h
        cases h
      | ok more =>
        rw [hline, hmore] at h
        cases h
        have hdumps : line = dumps item.document.1 := by
          unfold itemJsonLine at hline
          split at hline
          · exact (Except.ok.inj hline).symm
          · cases hline
        rw [hdumps, ih hmore]
        simp [Lines.Breaks.join]

theorem itemsJsonl_no_return (h : itemsJsonl items = .ok text) : '\r' ∉ text := by
  rw [itemsJsonl_eq_ok h]
  intro hmem
  obtain ⟨line, hline, hmem⟩ := List.mem_flatMap.mp hmem
  obtain ⟨item, -, rfl⟩ := List.mem_map.mp hline
  rcases List.mem_append.mp hmem with hdumps | hend
  · exact absurd (dumps_noControl _ _ hdumps) (by decide)
  · exact absurd hend (by decide)

theorem readText_itemsJsonl (h : itemsJsonl items = .ok text) :
    readText (encode text) = some text := by
  unfold readText
  rw [decode_encode, Option.map_some, universalNewlines_eq_self (itemsJsonl_no_return h)]

/-! ### Reading the store back -/

theorem itemsJsonl_cons_eq_ok {rest : List Mapping}
    (h : itemsJsonl (item :: rest) = .ok text) :
    ∃ more, itemsJsonl rest = .ok more ∧ text = dumps item.document.1 ++ '\n' :: more := by
  have htext := itemsJsonl_eq_ok h
  unfold itemsJsonl at h
  cases hline : itemJsonLine item with
  | error e =>
    rw [hline] at h
    cases h
  | ok line =>
    cases hmore : itemsJsonl rest with
    | error e =>
      rw [hline, hmore] at h
      cases h
    | ok more =>
      refine ⟨more, rfl, ?_⟩
      rw [htext, itemsJsonl_eq_ok hmore]
      simp [Lines.Breaks.join]

theorem validateItems_cons_eq_ok {value : Document} {rest : List Document}
    (h : validateItems source lineno seen (value :: rest) = .ok written) :
    ∃ itemId item more, validateItemForWrite source lineno seen value = .ok (itemId, item) ∧
      validateItems source (lineno + 1) (seen ++ [(itemId, lineno)]) rest = .ok more ∧
      written = item :: more := by
  unfold validateItems at h
  split at h
  · cases h
  rename_i itemId item hitem
  split at h
  · cases h
  rename_i more hmore
  exact ⟨itemId, item, more, hitem, hmore, (Except.ok.inj h).symm⟩

theorem map_validateItems {α : Type} {g : Mapping → α}
    (hg : ∀ item, g (fillItemForWrite item) = g item)
    (h : validateItems source lineno seen (items.map Mapping.document) = .ok written) :
    written.map g = items.map g := by
  induction items generalizing lineno seen written with
  | nil =>
    cases h
    rfl
  | cons item rest ih =>
    obtain ⟨itemId, filled, more, hvalid, hmore, rfl⟩ := validateItems_cons_eq_ok h
    obtain ⟨-, -, original, hvalue, rfl⟩ := validateItemForWrite_eq_ok hvalid
    cases (mapping?_document item).symm.trans hvalue
    rw [List.map_cons, List.map_cons, ih hmore, hg]

/-- **The lines of written items.**  They read as the items if every item is one line, and as
an error if one is not. -/
theorem parseLines_written (path : String) {items : List Document}
    (hvalid : validateItems source lineno seen items = .ok written)
    (htext : itemsJsonl written = .ok text) (before : List Mapping) :
    ((∀ item ∈ written, OneLine item.document.1) ∧
      ∃ linesById, parseLines path lineno before seen (strBreaks.lines text) =
        .ok (before ++ written, linesById)) ∨
    ((∃ item ∈ written, ¬OneLine item.document.1) ∧
      ∃ e, parseLines path lineno before seen (strBreaks.lines text) = .error e) := by
  induction items generalizing lineno seen written text before with
  | nil =>
    cases hvalid
    cases htext
    left
    refine ⟨nofun, seen, ?_⟩
    rw [List.append_nil]
    rfl
  | cons value rest ih =>
    obtain ⟨itemId, item, more, hitem, hmore, rfl⟩ := validateItems_cons_eq_ok hvalid
    obtain ⟨moreText, hmoreText, rfl⟩ := itemsJsonl_cons_eq_ok htext
    obtain ⟨hstored, hnew, -⟩ := validateItemForWrite_eq_ok hitem
    rcases dumps_lines item.document.1 with ⟨hone, hbreak⟩ | ⟨hcut, p, c, q, hdumps, hsep, hbreak⟩
    · -- The item is the first line, and the lines after it are those of the others.
      have hlines : strBreaks.lines (dumps item.document.1 ++ '\n' :: moreText) =
          dumps item.document.1 :: strBreaks.lines moreText :=
        strBreaks.lines_cons_line hbreak rfl (fun _ => rfl) moreText
      have hparse : parseLines path lineno before seen
            (dumps item.document.1 :: strBreaks.lines moreText) =
          parseLines path (lineno + 1) (before ++ [item]) (seen ++ [(itemId, lineno)])
            (strBreaks.lines moreText) := by
        rw [parseLines, hstored.parseLine_eq path lineno hnew]
      rw [hlines, hparse]
      rcases ih hmore hmoreText (before ++ [item]) with ⟨hall, linesById, hread⟩ |
        ⟨⟨bad, hbad, hnot⟩, e, hread⟩
      · left
        refine ⟨List.forall_mem_cons.mpr ⟨hone, hall⟩, linesById, ?_⟩
        rw [hread, List.append_assoc, List.singleton_append]
      · right
        exact ⟨⟨bad, List.mem_cons_of_mem _ hbad, hnot⟩, e, hread⟩
    · -- The first line stops inside a string of the item.
      right
      refine ⟨⟨item, List.mem_cons_self, hcut⟩, ?_⟩
      have hjoins : ∀ a, strBreaks.joins c a = false := by
        intro a
        show (decide (c = '\r') && decide (a = '\n')) = false
        have hne : c ≠ '\r' := by
          rintro rfl
          exact absurd hsep (by decide)
        rw [decide_eq_false hne, Bool.false_and]
      have hlines : strBreaks.lines (dumps item.document.1 ++ '\n' :: moreText) =
          p :: strBreaks.lines (q ++ '\n' :: moreText) := by
        rw [hdumps, List.append_assoc, List.cons_append]
        exact strBreaks.lines_cons_line hbreak (isBreak_lineSeparator hsep) hjoins _
      rw [hlines, parseLines,
        parseLine_cut path lineno seen (wide_of_mem_lineSeparators c hsep) hdumps]
      exact ⟨_, rfl⟩

theorem mentions_reviewLegacy (legacy : Bool) (item : Mapping) (hc : c ∈ lineSeparators) :
    (reviewLegacy legacy item).document.1.mentions c = item.document.1.mentions c := by
  have hkey : c ∉ "done_reviewed".toList := by
    revert c
    decide
  unfold reviewLegacy
  split
  · exact item.mentions_setDefault hkey rfl
  · rfl

theorem mentions_fillItemForWrite (item : Mapping) (hc : c ∈ lineSeparators) :
    (fillItemForWrite item).document.1.mentions c = item.document.1.mentions c := by
  have hkey : ∀ d ∈ lineSeparators, ∀ key ∈ filledKeys, d ∉ key.toList := by decide
  unfold fillItemForWrite
  rw [Mapping.mentions_setDefault _ (hkey c hc "schema_version" (by decide)) rfl,
    mentions_reviewLegacy _ _ hc,
    Mapping.mentions_setDefault _ (hkey c hc "done" (by decide)) rfl,
    Mapping.mentions_setDefault _ (hkey c hc "links" (by decide)) rfl,
    Mapping.mentions_setDefault _ (hkey c hc "blocked_by" (by decide)) rfl]

theorem document_of_mapping? {value : Document} (h : mapping? value = some item) :
    item.document = value := by
  unfold mapping? at h
  split at h
  · cases h
    rfl
  · cases h

theorem oneLine_written_iff {items : List Document}
    (h : validateItems source lineno seen items = .ok written) :
    (∀ item ∈ written, OneLine item.document.1) ↔ ∀ item ∈ items, OneLine item.1 := by
  induction items generalizing lineno seen written with
  | nil =>
    cases h
    exact ⟨nofun,
      nofun⟩
  | cons value rest ih =>
    obtain ⟨itemId, item, more, hitem, hmore, rfl⟩ := validateItems_cons_eq_ok h
    obtain ⟨-, -, original, hvalue, rfl⟩ := validateItemForWrite_eq_ok hitem
    have hfirst : OneLine (fillItemForWrite original).document.1 ↔ OneLine value.1 := by
      rw [← document_of_mapping? hvalue]
      constructor
      · intro hone c hc
        rw [← mentions_fillItemForWrite original hc]
        exact hone c hc
      · intro hone c hc
        rw [mentions_fillItemForWrite original hc]
        exact hone c hc
    rw [List.forall_mem_cons, List.forall_mem_cons, hfirst, ih hmore]

/-- **When written items read back**: exactly when no string of an item has one of the line
ends above ASCII. -/
theorem parseJsonl_itemsJsonl_iff (path : String) {items : List Document}
    (hvalid : validateItemsForWrite items = .ok written)
    (htext : itemsJsonl written = .ok text) :
    (∃ linesById, parseJsonl path (some (encode text)) = .ok (written, linesById)) ↔
      ∀ item ∈ items, OneLine item.1 := by
  have hread : parseJsonl path (some (encode text)) =
      parseLines path 1 [] [] (strBreaks.lines text) := by
    unfold parseJsonl
    simp only
    rw [readText_itemsJsonl htext]
  rw [hread, ← oneLine_written_iff hvalid]
  rcases parseLines_written path hvalid htext [] with ⟨hall, hok⟩ | ⟨⟨bad, hbad, hnot⟩, e, herror⟩
  · rw [List.nil_append] at hok
    exact ⟨fun _ => hall, fun _ => hok⟩
  · constructor
    · rintro ⟨linesById, hok⟩
      rw [herror] at hok
      cases hok
    · intro hall
      exact absurd (hall bad hbad) hnot

end GoalFlight.Tasks
