import GoalFlight.Tasks.Import
import GoalFlight.Tasks.Turns
import GoalFlight.Tasks.Written
import Mathlib.Data.List.Dedup
import Mathlib.Data.List.DropRight

/-!
# What an import leaves

The parts of an import, each with what it leaves: the records that are read, the ids that are
allocated, the items that are made of records, and the store that is published.

`sortTexts_dedupe_map_iff` is where an import and its repetition differ: the blockers
of a record are mapped to keys, those of its item have been mapped to ids and made unique
before, so the two signatures are equal exactly when no two blockers became one id.
-/

namespace GoalFlight.Tasks

open Json Utf8

variable {lineno : ℕ} {e : ImportEnv} {seen : List (String × ℕ)} {records : List SidecarRecord}

/-! ### Texts -/

theorem mem_dedupeStrs {out : List String} {values : List Value} {text : String} :
    text ∈ dedupeStrs out values ↔
      text ∈ out ∨ ∃ v ∈ values, v.isAbsent = false ∧ strOf v = text := by
  induction values generalizing out with
  | nil => simp [dedupeStrs]
  | cons v rest ih =>
    unfold dedupeStrs
    split
    · rename_i hskip
      rw [ih]
      constructor
      · rintro (hout | ⟨w, hw, hpresent, rfl⟩)
        · exact .inl hout
        · exact .inr ⟨w, List.mem_cons_of_mem _ hw, hpresent, rfl⟩
      · rintro (hout | ⟨w, hw, hpresent, rfl⟩)
        · exact .inl hout
        · rcases List.mem_cons.mp hw with rfl | hw
          · rw [hpresent, Bool.false_or, decide_eq_true_eq] at hskip
            exact .inl hskip
          · exact .inr ⟨w, hw, hpresent, rfl⟩
    · rename_i hadd
      rw [Bool.or_eq_true, not_or, Bool.not_eq_true] at hadd
      rw [ih, List.mem_append, List.mem_singleton]
      constructor
      · rintro ((hout | rfl) | ⟨w, hw, hpresent, rfl⟩)
        · exact .inl hout
        · exact .inr ⟨v, List.mem_cons_self, hadd.1, rfl⟩
        · exact .inr ⟨w, List.mem_cons_of_mem _ hw, hpresent, rfl⟩
      · rintro (hout | ⟨w, hw, hpresent, rfl⟩)
        · exact .inl (.inl hout)
        · rcases List.mem_cons.mp hw with rfl | hw
          · exact .inl (.inr rfl)
          · exact .inr ⟨w, hw, hpresent, rfl⟩

theorem nodup_dedupeStrs {out : List String} {values : List Value} (h : out.Nodup) :
    (dedupeStrs out values).Nodup := by
  induction values generalizing out with
  | nil => exact h
  | cons v rest ih =>
    unfold dedupeStrs
    split
    · exact ih h
    · rename_i hadd
      rw [Bool.or_eq_true, not_or, decide_eq_true_eq] at hadd
      exact ih (List.concat_eq_append ▸ h.concat hadd.2)

theorem mem_dedupeTexts {texts : List String} {text : String} :
    text ∈ dedupeTexts texts ↔ text ∈ texts ∧ text ≠ "" := by
  unfold dedupeTexts
  rw [mem_dedupeStrs]
  constructor
  · rintro (hnil | ⟨v, hv, hpresent, rfl⟩)
    · cases hnil
    · obtain ⟨s, hs, rfl⟩ := List.mem_map.mp hv
      refine ⟨hs, ?_⟩
      rintro hempty
      obtain rfl : s = "" := hempty
      cases hpresent
  · rintro ⟨hmem, hne⟩
    refine .inr ⟨.str text, List.mem_map.mpr ⟨text, hmem, rfl⟩, ?_, rfl⟩
    rw [Bool.eq_false_iff]
    intro habsent
    rcases Value.isAbsent_iff.mp habsent with hnull | hempty
    · cases hnull
    · exact hne (Value.str.inj hempty)

theorem nodup_dedupeTexts (texts : List String) : (dedupeTexts texts).Nodup :=
  nodup_dedupeStrs List.nodup_nil

theorem sortTexts_perm (texts : List String) : (sortTexts texts).Perm texts :=
  List.perm_insertionSort _ _

theorem sortTexts_eq_iff {texts others : List String} :
    sortTexts texts = sortTexts others ↔ texts.Perm others := by
  have hsorted (ys : List String) : (sortTexts ys).Pairwise (· ≤ ·) := by
    have htotal : Std.Total fun a b : String => a ≤ b := ⟨String.le_total⟩
    have htrans : IsTrans String (· ≤ ·) := ⟨fun _ _ _ => String.le_trans⟩
    exact List.pairwise_insertionSort (· ≤ ·) ys
  constructor
  · intro h
    have hperm := sortTexts_perm texts
    rw [h] at hperm
    exact hperm.symm.trans (sortTexts_perm others)
  · intro h
    apply List.Perm.eq_of_pairwise (fun a b _ _ hab hba => String.le_antisymm hab hba)
      (hsorted texts) (hsorted others)
    exact ((sortTexts_perm texts).trans h).trans (sortTexts_perm others).symm

/-- **Texts made unique after they were mapped.**  Mapped on to keys, they are the keys of the
texts exactly when no two texts were mapped to one. -/
theorem sortTexts_dedupe_map_iff {f g h : String → String} {texts : List String}
    (hpresent : ∀ x ∈ texts, x ≠ "" ∧ f x ≠ "") (hkeys : ∀ x ∈ texts, g (f x) = h x) :
    sortTexts ((dedupeTexts texts).map h) =
        sortTexts ((dedupeTexts (dedupeTexts (texts.map f))).map g) ↔
      ∀ x ∈ texts, ∀ y ∈ texts, f x = f y → x = y := by
  have hmem {x : String} : x ∈ dedupeTexts texts ↔ x ∈ texts :=
    mem_dedupeTexts.trans ⟨And.left, fun hx => ⟨hx, (hpresent x hx).1⟩⟩
  have hsame {y : String} :
      y ∈ dedupeTexts (dedupeTexts (texts.map f)) ↔ y ∈ (dedupeTexts texts).map f := by
    rw [mem_dedupeTexts, mem_dedupeTexts, List.mem_map, List.mem_map]
    constructor
    · rintro ⟨⟨⟨x, hx, rfl⟩, -⟩, -⟩
      exact ⟨x, hmem.mpr hx, rfl⟩
    · rintro ⟨x, hx, rfl⟩
      have hne := (hpresent x (hmem.mp hx)).2
      exact ⟨⟨⟨x, hmem.mp hx, rfl⟩, hne⟩, hne⟩
  rw [sortTexts_eq_iff]
  constructor
  · intro hperm
    -- As many images as texts, so none was dropped.
    have hlength := hperm.length_eq
    rw [List.length_map, List.length_map] at hlength
    have hdedup : (dedupeTexts (dedupeTexts (texts.map f))).Perm
        ((dedupeTexts texts).map f).dedup := by
      rw [List.perm_ext_iff_of_nodup (nodup_dedupeTexts _) (List.nodup_dedup _)]
      intro y
      rw [hsame, List.mem_dedup]
    have hwhole : ((dedupeTexts texts).map f).dedup = (dedupeTexts texts).map f := by
      apply (List.dedup_sublist _).eq_of_length
      rw [← hdedup.length_eq, ← hlength, List.length_map]
    have hnodup : ((dedupeTexts texts).map f).Nodup := hwhole ▸ List.nodup_dedup _
    intro x hx y hy heq
    exact List.inj_on_of_nodup_map hnodup (hmem.mpr hx) (hmem.mpr hy) heq
  · intro hinj
    have hnodup : ((dedupeTexts texts).map f).Nodup := by
      refine List.Nodup.map_on ?_ (nodup_dedupeTexts texts)
      intro x hx y hy heq
      exact hinj x (hmem.mp hx) y (hmem.mp hy) heq
    have hperm : ((dedupeTexts texts).map f).Perm (dedupeTexts (dedupeTexts (texts.map f))) := by
      rw [List.perm_ext_iff_of_nodup hnodup (nodup_dedupeTexts _)]
      exact fun y => hsame.symm
    have hmapped : ((dedupeTexts texts).map f).map g = (dedupeTexts texts).map h := by
      rw [List.map_map]
      exact List.map_congr_left fun x hx => hkeys x (hmem.mp hx)
    exact hmapped ▸ hperm.map g

/-! ### Content keys -/

theorem strip_of_ends {text : List Char} (hhead : text.dropWhile Messages.isSpace = text)
    (hlast : text.reverse.dropWhile Messages.isSpace = text.reverse) : strip text = text := by
  unfold strip
  rw [hhead, hlast, List.reverse_reverse]

theorem strip_strip (text : List Char) : strip (strip text) = strip text := by
  apply strip_of_ends
  · -- The first character of the stripped text is that of `lstrip`.
    unfold strip
    cases hleft : text.dropWhile Messages.isSpace with
    | nil => rfl
    | cons c rest =>
      have hc : Messages.isSpace c = false := by
        have hhead := List.head?_dropWhile_not Messages.isSpace text
        rw [hleft] at hhead
        exact Bool.eq_false_iff.mpr fun h => by simp [h] at hhead
      obtain ⟨kept, hkept⟩ : ∃ kept, ((c :: rest).reverse.dropWhile Messages.isSpace).reverse =
          c :: kept := by
        rw [List.reverse_cons, List.dropWhile_append]
        split
        · rename_i hempty
          exact ⟨[], by rw [List.dropWhile_cons, hc]; rfl⟩
        · exact ⟨_, by rw [List.reverse_append]; rfl⟩
      rw [hkept, List.dropWhile_cons, hc]
      rfl
  · unfold strip
    rw [List.reverse_reverse, List.dropWhile_idempotent]

theorem normKey_strip (lower : List Char → List Char) (title : String) :
    normKey lower (String.ofList (strip title.toList)) = normKey lower title := by
  unfold normKey
  rw [String.toList_ofList, strip_strip]

/-- **Content keys** are those of kinds and normalised titles. -/
theorem importContentKey_inj {lower : List Char → List Char} {kind other title otherTitle : String}
    (hkind : kind ∈ importKinds) (hother : other ∈ importKinds) :
    importContentKey lower kind title = importContentKey lower other otherTitle ↔
      kind = other ∧ normKey lower title = normKey lower otherTitle := by
  constructor
  · intro h
    have htexts := List.append_cancel_left (String.ofList_injective h)
    rw [String.toList_append, String.toList_append, String.toList_append,
      String.toList_append] at htexts
    have hkinds : kind = other := by
      simp only [importKinds, List.mem_cons, List.not_mem_nil, or_false] at hkind hother
      rcases hkind with rfl | rfl | rfl <;> rcases hother with rfl | rfl | rfl <;>
        first | rfl | (simp at htexts)
    subst hkinds
    exact ⟨rfl, String.toList_injective (List.append_cancel_left htexts)⟩
  · rintro ⟨rfl, htitle⟩
    unfold importContentKey
    rw [htitle]

/-- What every record is that was read. -/
structure SidecarRecord.WellRead (lower : List Char → List Char) (r : SidecarRecord) : Prop where
  draft : draftStart <+: r.draftId.toList
  key : r.importKey = importContentKey lower r.kind r.title

theorem sidecarRecord?_eq_some {lower : List Char → List Char} {record : Mapping}
    {r : SidecarRecord} (h : sidecarRecord? lower lineno record = some r) :
    r.WellRead lower ∧ record.get? "kind" = some (.str r.kind) := by
  unfold sidecarRecord? at h
  simp only at h
  split at h
  · rename_i draftId kind title hid hkind htitle
    split at h
    · rename_i hdraft
      cases h
      refine ⟨⟨hdraft, ?_⟩, hkind⟩
      show importContentKey lower kind title = importContentKey lower kind _
      unfold importContentKey
      rw [normKey_strip]
    · cases h
  · cases h

theorem kind_of_fieldErrors {label : String} {record : Mapping} {kind : String}
    (h : fieldErrors label record = []) (hkind : record.get? "kind" = some (.str kind)) :
    kind ∈ importKinds := by
  unfold fieldErrors at h
  simp only [List.append_eq_nil_iff] at h
  obtain ⟨⟨⟨⟨-, hkinds⟩, -⟩, -⟩, -⟩ := h
  rw [hkind, Option.any_some, ite_eq_left_iff, Bool.not_eq_true] at hkinds
  by_contra hnot
  have hany : (importKinds.any fun known => Value.str kind = .str known) = false := by
    rw [List.any_eq_false]
    intro known hknown heq
    exact hnot (Value.str.inj (of_decide_eq_true heq) ▸ hknown)
  exact absurd (hkinds hany) (List.cons_ne_nil _ _)

/-- **What is read.** -/
theorem readSidecarLines_eq_ok {lines : List (List Char)} {errors : List String}
    (h : readSidecarLines e lineno seen lines = .ok (records, errors)) :
    ∀ r ∈ records, r.WellRead e.lower ∧ (errors = [] → r.kind ∈ importKinds) := by
  induction lines generalizing lineno seen records errors with
  | nil =>
    obtain ⟨rfl, rfl⟩ := Prod.mk.inj (Except.ok.inj h)
    exact nofun
  | cons raw rest ih =>
    obtain ⟨⟨record, first, seen'⟩, hline, h⟩ := exists_of_bind_eq_ok h
    obtain ⟨⟨later, more⟩, hrest, h⟩ := exists_of_bind_eq_ok h
    obtain ⟨rfl, rfl⟩ := Prod.mk.inj (Except.ok.inj h)
    have hfirst : ∀ r ∈ record, r.WellRead e.lower ∧ (first = [] → r.kind ∈ importKinds) := by
      unfold readSidecarLine at hline
      simp only at hline
      split at hline
      · obtain ⟨rfl, -⟩ := Prod.mk.inj (Except.ok.inj hline)
        exact fun r hr => absurd hr (Option.not_mem_none r)
      split at hline
      · obtain ⟨rfl, -⟩ := Prod.mk.inj (Except.ok.inj hline)
        exact fun r hr => absurd hr (Option.not_mem_none r)
      split at hline
      · obtain ⟨rfl, -⟩ := Prod.mk.inj (Except.ok.inj hline)
        exact fun r hr => absurd hr (Option.not_mem_none r)
      split at hline
      · cases hline
      obtain ⟨rfl, hpair⟩ := Prod.mk.inj (Except.ok.inj hline)
      obtain ⟨rfl, -⟩ := Prod.mk.inj hpair
      intro r hr
      obtain ⟨hread, hkind⟩ := sidecarRecord?_eq_some hr
      refine ⟨hread, fun hnone => ?_⟩
      exact kind_of_fieldErrors (List.append_eq_nil_iff.mp hnone).2 hkind
    intro r hr
    rcases List.mem_append.mp hr with hr | hr
    · obtain ⟨hread, hkind⟩ := hfirst r (Option.mem_toList.mp hr)
      exact ⟨hread, fun hnone => hkind (List.append_eq_nil_iff.mp hnone).1⟩
    · obtain ⟨hread, hkind⟩ := ih hrest r hr
      exact ⟨hread, fun hnone => hkind (List.append_eq_nil_iff.mp hnone).2⟩

theorem draft_of_readSidecarLine {seen' : List (String × ℕ)} {raw : List Char}
    {record : Option SidecarRecord}
    (h : readSidecarLine e lineno seen raw = .ok (record, [], seen')) :
    seen.map Prod.fst ⊆ seen'.map Prod.fst ∧
      ∀ r ∈ record, r.draftId ∉ seen.map Prod.fst ∧ r.draftId ∈ seen'.map Prod.fst := by
  unfold readSidecarLine at h
  simp only at h
  split at h
  · obtain ⟨rfl, hpair⟩ := Prod.mk.inj (Except.ok.inj h)
    obtain ⟨-, rfl⟩ := Prod.mk.inj hpair
    exact ⟨List.Subset.refl _, fun r hr => absurd hr (Option.not_mem_none r)⟩
  split at h
  · obtain ⟨-, hpair⟩ := Prod.mk.inj (Except.ok.inj h)
    exact absurd (Prod.mk.inj hpair).1 (List.cons_ne_nil _ _)
  split at h
  · obtain ⟨-, hpair⟩ := Prod.mk.inj (Except.ok.inj h)
    exact absurd (Prod.mk.inj hpair).1 (List.cons_ne_nil _ _)
  split at h
  · cases h
  rename_i fields _ _
  obtain ⟨rfl, hpair⟩ := Prod.mk.inj (Except.ok.inj h)
  obtain ⟨herrors, rfl⟩ := Prod.mk.inj hpair
  have hdraft := (List.append_eq_nil_iff.mp herrors).1
  constructor
  · unfold noteDraft
    split
    · split
      · rw [List.map_append]
        exact List.subset_append_left _ _
      · exact List.Subset.refl _
    · exact List.Subset.refl _
  · intro r hr
    have hid : fields.get? "id" = some (.str r.draftId) := by
      unfold sidecarRecord? at hr
      simp only at hr
      split at hr
      · rename_i hget _ _
        split at hr
        · cases hr
          exact hget
        · cases hr
      · cases hr
    unfold draftErrors at hdraft
    rw [hid] at hdraft ⊢
    simp only at hdraft
    split at hdraft
    · rename_i hstart
      split at hdraft
      · exact absurd hdraft (List.cons_ne_nil _ _)
      · rename_i hnone
        refine ⟨Dictionary.get?_eq_none_iff.mp hnone, ?_⟩
        unfold noteDraft
        simp only
        rw [if_pos ⟨hstart.1, hstart.2, by rw [hnone]; rfl⟩, List.map_append]
        exact List.mem_append_right _ (List.mem_singleton.mpr rfl)
    · split at hdraft
      · exact absurd hdraft (List.cons_ne_nil _ _)
      · exact absurd hdraft (List.cons_ne_nil _ _)

/-- **No draft is there twice** in a file without errors. -/
theorem nodup_draftIds {lines : List (List Char)}
    (h : readSidecarLines e lineno seen lines = .ok (records, [])) :
    (draftIds records).Nodup ∧ ∀ id ∈ draftIds records, id ∉ seen.map Prod.fst := by
  induction lines generalizing lineno seen records with
  | nil =>
    obtain ⟨rfl, -⟩ := Prod.mk.inj (Except.ok.inj h)
    exact ⟨List.nodup_nil, nofun⟩
  | cons raw rest ih =>
    obtain ⟨⟨record, first, seen'⟩, hline, h⟩ := exists_of_bind_eq_ok h
    obtain ⟨⟨later, more⟩, hrest, h⟩ := exists_of_bind_eq_ok h
    obtain ⟨rfl, herrors⟩ := Prod.mk.inj (Except.ok.inj h)
    obtain ⟨rfl, rfl⟩ := List.append_eq_nil_iff.mp herrors
    obtain ⟨hsub, hdraft⟩ := draft_of_readSidecarLine hline
    obtain ⟨hnodup, hlater⟩ := ih hrest
    cases record with
    | none => exact ⟨hnodup, fun id hid hmem => hlater id hid (hsub hmem)⟩
    | some r =>
      obtain ⟨hnew, hseen⟩ := hdraft r rfl
      refine ⟨List.nodup_cons.mpr ⟨fun hmem => hlater _ hmem hseen, hnodup⟩, ?_⟩
      exact List.forall_mem_cons.mpr ⟨hnew, fun id hid hmem => hlater id hid (hsub hmem)⟩

theorem readImportRecords_eq_ok {sidecar : Bytes} {errors : List String}
    (h : readImportRecords e sidecar = .ok (records, errors)) :
    ∀ r ∈ records, r.WellRead e.lower ∧ (errors = [] → r.kind ∈ importKinds) := by
  unfold readImportRecords at h
  split at h
  · cases h
  · exact readSidecarLines_eq_ok h

theorem nodup_of_readImportRecords {sidecar : Bytes}
    (h : readImportRecords e sidecar = .ok (records, [])) : (draftIds records).Nodup := by
  unfold readImportRecords at h
  split at h
  · cases h
  · exact (nodup_draftIds h).1

/-! ### A file of objects -/

theorem lines_objects {objects : List Mapping} (hone : ∀ o ∈ objects, OneLine o.document.1) :
    strBreaks.lines (objects.flatMap fun o => dumps o.document.1 ++ ['\n']) =
      objects.map fun o => dumps o.document.1 := by
  induction objects with
  | nil => rfl
  | cons o rest ih =>
    obtain ⟨ho, hrest⟩ := List.forall_mem_cons.mp hone
    rcases dumps_lines o.document.1 with ⟨-, hbreak⟩ | ⟨hcut, -⟩
    · rw [List.flatMap_cons, List.append_assoc, List.singleton_append,
        strBreaks.lines_cons_line hbreak rfl (fun _ => rfl), ih hrest]
      rfl
    · exact absurd ho hcut

theorem readImportRecords_objects (e : ImportEnv) {objects : List Mapping}
    (hone : ∀ o ∈ objects, OneLine o.document.1) :
    readImportRecords e (encode (objects.flatMap fun o => dumps o.document.1 ++ ['\n'])) =
      readSidecarLines e 1 [] (objects.map fun o => dumps o.document.1) := by
  have hreturn : '\r' ∉ objects.flatMap fun o => dumps o.document.1 ++ ['\n'] := by
    intro hmem
    obtain ⟨o, -, hmem⟩ := List.mem_flatMap.mp hmem
    rcases List.mem_append.mp hmem with hdumps | hend
    · exact absurd (dumps_noControl _ _ hdumps) (by decide)
    · exact absurd hend (by decide)
  unfold readImportRecords readText
  rw [decode_encode, Option.map_some, universalNewlines_eq_self hreturn]
  simp only
  rw [lines_objects hone]

theorem readSidecarLine_dumps (e : ImportEnv) (lineno : ℕ) (seen : List (String × ℕ))
    (o : Mapping) :
    readSidecarLine e lineno seen (dumps o.document.1) =
      if isUnhashable (o.get? "kind") then .error .typeError
      else .ok (sidecarRecord? e.lower lineno o,
        draftErrors e.digits ("line " ++ toString lineno) seen (o.get? "id") ++
          fieldErrors ("line " ++ toString lineno) o, noteDraft lineno seen (o.get? "id")) := by
  have hne : dumps o.document.1 ≠ [] := by
    obtain ⟨text, htext⟩ := dumps_obj_head o.1
    intro hnil
    exact List.cons_ne_nil _ _ (htext.symm.trans hnil)
  unfold readSidecarLine
  simp only
  rw [dumps_not_blank hne (List.append_nil _).symm, if_neg Bool.false_ne_true,
    loadsDocument_dumps]
  simp only
  rw [mapping?_document]

/-! ### The search for cycles -/

theorem isSome_foldlM {α β : Type} (f : β → α → Option β) (xs : List α)
    (hf : ∀ x ∈ xs, ∀ acc, (f acc x).isSome = true) (acc : β) :
    (xs.foldlM f acc).isSome = true := by
  induction xs generalizing acc with
  | nil => rfl
  | cons x rest ih =>
    obtain ⟨hx, hrest⟩ := List.forall_mem_cons.mp hf
    obtain ⟨next, hnext⟩ := Option.isSome_iff_exists.mp (hx acc)
    rw [List.foldlM_cons, hnext]
    exact ih hrest next

theorem findCycle_isSome {edges : List (String × List String)}
    (hclosed : ∀ entry ∈ edges, ∀ blocker ∈ entry.2, blocker ∈ edges.map Prod.fst) {fuel : ℕ}
    {path : List String} {draftId : String} (hpath : path.Nodup)
    (hsub : path ⊆ edges.map Prod.fst) (hdraft : draftId ∈ edges.map Prod.fst)
    (hfuel : edges.length < fuel + path.length) (found : CycleSearch) :
    (findCycle edges fuel path draftId found).isSome = true := by
  induction fuel generalizing path draftId found with
  | zero =>
    have hle := hpath.length_le_of_subset hsub
    rw [List.length_map] at hle
    omega
  | succ fuel ih =>
    unfold findCycle
    split
    · rfl
    split
    · rfl
    rename_i hnew
    have hpath' : (path ++ [draftId]).Nodup := List.concat_eq_append ▸ hpath.concat hnew
    have hsub' : path ++ [draftId] ⊆ edges.map Prod.fst := by
      rw [List.append_subset]
      exact ⟨hsub, fun id hid => List.mem_singleton.mp hid ▸ hdraft⟩
    have hloop := isSome_foldlM
      (fun found blocker => findCycle edges fuel (path ++ [draftId]) blocker found)
      ((Dictionary.get? edges draftId).getD []) (by
        intro blocker hblocker acc
        refine ih hpath' hsub' ?_ (by rw [List.length_append, List.length_singleton]; omega) acc
        cases hentry : Dictionary.get? edges draftId with
        | none =>
          rw [hentry] at hblocker
          cases hblocker
        | some blockers =>
          rw [hentry] at hblocker
          exact hclosed _ (Dictionary.mem_of_get? hentry) blocker hblocker) found
    obtain ⟨next, hnext⟩ := Option.isSome_iff_exists.mp hloop
    rw [hnext]
    rfl

/-- **The search among the drafts of a file ends.** -/
theorem searchCycle_isSome (records : List SidecarRecord) :
    (searchCycle (draftEdges records)).isSome = true := by
  have hkeys {draftId : String} (h : draftId ∈ draftIds records) :
      draftId ∈ (draftEdges records).map Prod.fst := by
    unfold draftEdges
    rw [Dictionary.mem_keys_items, List.map_map]
    exact h
  unfold searchCycle
  apply isSome_foldlM
  intro draftId hdraft found
  refine findCycle_isSome ?_ List.nodup_nil (List.nil_subset _) hdraft (by simp) found
  intro entry hentry blocker hblocker
  obtain ⟨r, -, rfl⟩ := List.mem_map.mp (Dictionary.mem_of_mem_items hentry)
  exact hkeys (of_decide_eq_true (List.mem_filter.mp hblocker).2).1

/-! ### Created records -/

/-- **The created records** are the records of keys that are not known, one for each key. -/
theorem createdRecords_spec (known : List String) (records : List SidecarRecord) :
    ((createdRecords known records).map SidecarRecord.importKey).Nodup ∧
      (∀ r ∈ createdRecords known records, r ∈ records ∧ r.importKey ∉ known) ∧
      ∀ r ∈ records, r.importKey ∉ known →
        r.importKey ∈ (createdRecords known records).map SidecarRecord.importKey := by
  induction records generalizing known with
  | nil =>
    exact ⟨List.nodup_nil, nofun,
      nofun⟩
  | cons first rest ih =>
    unfold createdRecords
    split
    · rename_i hknown
      obtain ⟨hnodup, hcreated, hmissing⟩ := ih known
      refine ⟨hnodup, fun r hr => ⟨List.mem_cons_of_mem _ (hcreated r hr).1, (hcreated r hr).2⟩,
        fun r hr hnew => ?_⟩
      rcases List.mem_cons.mp hr with rfl | hr
      · exact absurd hknown hnew
      · exact hmissing r hr hnew
    · rename_i hnew
      obtain ⟨hnodup, hcreated, hmissing⟩ := ih (first.importKey :: known)
      refine ⟨?_, ?_, ?_⟩
      · rw [List.map_cons, List.nodup_cons]
        refine ⟨fun hmem => ?_, hnodup⟩
        obtain ⟨r, hr, hkey⟩ := List.mem_map.mp hmem
        exact (hcreated r hr).2 (hkey ▸ List.mem_cons_self)
      · rw [List.forall_mem_cons]
        refine ⟨⟨List.mem_cons_self, hnew⟩, fun r hr => ?_⟩
        obtain ⟨hmem, hfresh⟩ := hcreated r hr
        exact ⟨List.mem_cons_of_mem _ hmem, fun h => hfresh (List.mem_cons_of_mem _ h)⟩
      · intro r hr hfresh
        rw [List.map_cons]
        rcases List.mem_cons.mp hr with rfl | hr
        · exact List.mem_cons_self
        · by_cases hsame : r.importKey = first.importKey
          · exact hsame ▸ List.mem_cons_self
          · refine List.mem_cons_of_mem _ (hmissing r hr ?_)
            exact List.not_mem_cons_of_ne_of_not_mem hsame hfresh

theorem createdRecords_eq_nil {known : List String} (h : ∀ r ∈ records, r.importKey ∈ known) :
    createdRecords known records = [] := by
  rw [List.eq_nil_iff_forall_not_mem]
  intro r hr
  obtain ⟨hmem, hnew⟩ := (createdRecords_spec known records).2.1 r hr
  exact hnew (h r hmem)

/-- **Allocated ids** are minted and new, and one for each family. -/
theorem previewImportIds_spec {seq : Family → ℕ} {items : List Mapping}
    {families : List Family} {allocated : List String}
    (h : previewImportIds e seq items families = some allocated) :
    allocated.length = families.length ∧ allocated.Nodup ∧
      ∀ id ∈ allocated, (∃ f n, id = mintedId f n) ∧ id ∉ items.map idOf := by
  obtain ⟨taken, htaken, rfl⟩ := Option.map_eq_some_iff.mp h
  obtain ⟨hlength, hnodup, hnew⟩ := previewIds_spec htaken
  refine ⟨hlength, hnodup, fun id hid => ⟨?_, hnew id hid⟩⟩
  obtain ⟨⟨f, n⟩, -, rfl⟩ := List.mem_map.mp hid
  exact ⟨f, n, rfl⟩

theorem previewImportIds_nil (e : ImportEnv) (seq : Family → ℕ) (items : List Mapping) :
    previewImportIds e seq items [] = some [] := by
  unfold previewImportIds takenNumbers
  rw [if_pos nofun]
  rfl

theorem not_draftStart_mintedId (f : Family) (n : ℕ) : ¬draftStart <+: (mintedId f n).toList := by
  unfold mintedId
  rw [String.toList_ofList]
  rintro ⟨rest, hrest⟩
  cases f <;> simp [draftStart, Family.idPrefix, Family.name] at hrest

/-! ### Items of records -/

section RecordItem

variable (c : ImportCall) (mapping : List (String × String)) (r : SidecarRecord) (itemId : String)

theorem get?_recordItem_set (key : String) (value : Document)
    (h : (key, value) ∈ [("links", textsValue r.links), ("tags", textsValue r.tags),
      ("import_key", textValue r.importKey), ("import_source", textValue c.source),
      ("import_draft_id", textValue r.draftId), ("original_draft_id", textValue r.draftId)]) :
    (recordItem c mapping r itemId).get? key = some value.1 := by
  unfold recordItem importItem
  exact Mapping.get?_update_of_mem _ (by simp) h

theorem get?_recordItem {key : String} (h : key ∉ ["links", "tags", "import_key", "import_source",
    "import_draft_id", "original_draft_id"]) :
    (recordItem c mapping r itemId).get? key =
      (makeItem
        { itemId := itemId
          kind := r.kind
          title := r.title
          blockedBy := r.blockedBy.map (keyIn mapping)
          links := []
          tags := []
          lane := some r.lane } c.stamp "import").get? key := by
  unfold recordItem importItem
  exact Mapping.get?_update_of_notMem _ h

theorem get?_makeItem {spec : ItemSpec} {st : Stamp} {action key : String} (value : Document)
    (hkey : key ≠ "lane")
    (h : (key, value) ∈ [("schema_version", ⟨.int itemSchemaVersion, rfl⟩),
      ("id", textValue spec.itemId), ("kind", textValue spec.kind),
      ("title", textValue spec.title), ("blocked_by", textsValue (dedupeTexts spec.blockedBy)),
      ("links", textsValue (dedupeTexts spec.links)), ("done", boolValue false),
      ("tags", textsValue (dedupeTexts spec.tags))]) :
    (makeItem spec st action).get? key = some value.1 := by
  have hbase : ∀ fields : List (String × Document), (fields.map Prod.fst).Nodup →
      (key, value) ∈ fields → (Mapping.empty.update fields).get? key = some value.1 :=
    fun fields => Mapping.get?_update_of_mem _
  unfold makeItem
  simp only
  split
  · exact hbase _ (by simp) (List.mem_append_left _ h)
  · rw [Mapping.get?_set_of_ne _ hkey]
    exact hbase _ (by simp) (List.mem_append_left _ h)

theorem idOf_recordItem : idOf (recordItem c mapping r itemId) = itemId := by
  unfold idOf
  rw [get?_recordItem c mapping r itemId (by decide),
    get?_makeItem (textValue itemId) (by decide) (by simp)]
  rfl

theorem importKey?_recordItem (h : r.importKey ≠ "") :
    importKey? (recordItem c mapping r itemId) = some r.importKey := by
  unfold importKey?
  rw [get?_recordItem_set c mapping r itemId "import_key"
    (textValue r.importKey) (by simp)]
  exact if_neg h

/-- **The blockers of the item** are those of the record, the drafts replaced, without
repetitions. -/
theorem blockedBy_recordItem : (recordItem c mapping r itemId).get? "blocked_by" =
    some (textsValue (dedupeTexts (r.blockedBy.map (keyIn mapping)))).1 := by
  rw [get?_recordItem c mapping r itemId (by decide)]
  exact get?_makeItem (textsValue (dedupeTexts (r.blockedBy.map (keyIn mapping))))
    (by decide) (by simp)

theorem filled_recordItem : Filled (recordItem c mapping r itemId) := by
  refine ⟨?_, ?_, ?_, ?_⟩
  · rw [get?_recordItem c mapping r itemId (by decide),
      get?_makeItem ⟨.int itemSchemaVersion, rfl⟩ (by decide) (by simp)]
    rfl
  · rw [blockedBy_recordItem]
    rfl
  · rw [get?_recordItem_set c mapping r itemId "links" (textsValue r.links)
      (by simp)]
    rfl
  · rw [get?_recordItem c mapping r itemId (by decide),
      get?_makeItem (boolValue false) (by decide) (by simp)]
    rfl

theorem itemSignature?_recordItem (keyOf : String → String) :
    itemSignature? keyOf (recordItem c mapping r itemId) =
      some (contentSignature keyOf r.lane (dedupeTexts r.tags)
        (dedupeTexts (dedupeTexts (r.blockedBy.map (keyIn mapping)))) (dedupeTexts r.links)) := by
  have hlane : (recordItem c mapping r itemId).get? "lane" = some (.str r.lane) := by
    rw [get?_recordItem c mapping r itemId (by decide)]
    exact Mapping.get?_set _ _ _
  unfold itemSignature? dedupedField?
  rw [get?_recordItem_set c mapping r itemId "tags" (textsValue r.tags)
      (by simp), blockedBy_recordItem,
    get?_recordItem_set c mapping r itemId "links" (textsValue r.links)
      (by simp), hlane]
  rfl

end RecordItem

theorem filterMap_zipWith_recordItem {α : Type} (c : ImportCall)
    (mapping : List (String × String)) (f : Mapping → String → α) {allocated : List String}
    (h : ∀ r ∈ records, r.importKey ≠ "") :
    ((List.zipWith (recordItem c mapping) records allocated).filterMap fun item =>
        (importKey? item).map (f item)) =
      List.zipWith (fun r id => f (recordItem c mapping r id) r.importKey) records allocated := by
  induction records generalizing allocated with
  | nil => rfl
  | cons r rest ih =>
    cases allocated with
    | nil => rfl
    | cons id more =>
      obtain ⟨hr, hrest⟩ := List.forall_mem_cons.mp h
      rw [List.zipWith_cons_cons, List.zipWith_cons_cons, List.filterMap_cons,
        importKey?_recordItem c mapping r id hr, Option.map_some]
      exact congrArg _ (ih hrest)

/-! ### The published store -/

theorem present_of_validateItems {source : String} {items written : List Mapping}
    (h : validateItems source lineno seen (items.map Mapping.document) = .ok written) :
    ∀ item ∈ items, idOf item ≠ "" := by
  induction items generalizing lineno seen written with
  | nil => exact nofun
  | cons item rest ih =>
    rw [List.map_cons] at h
    obtain ⟨itemId, filled, more, hvalid, hmore, rfl⟩ := validateItems_cons_eq_ok h
    obtain ⟨hstored, -, original, hvalue, rfl⟩ := validateItemForWrite_eq_ok hvalid
    cases (mapping?_document item).symm.trans hvalue
    refine List.forall_mem_cons.mpr ⟨?_, ih hmore⟩
    rw [← idOf_fillItemForWrite, idOf_eq hstored.id]
    rintro rfl
    have hid := hstored.id
    unfold itemId? at hid
    split at hid
    · split at hid
      · cases hid
      · rename_i hne
        exact hne (Option.some.inj hid)
    · cases hid

/-- **A store that was saved** with items that have their defaults. -/
structure Saved (w : StoreEnv) (s : Store) (items : List Mapping) : Prop where
  filled : ∀ item ∈ items, Filled item
  marker : s.marker = false
  files : ∃ g, stageItems w (items.map Mapping.document) = .ok (items, g) ∧
    s.file .tasks = some (g.bytes .tasks) ∧
    (w.exportEnabled = true → s.file .dataJs = some (g.bytes .dataJs))

theorem saved_of_saveItemsAtomic {w : StoreEnv} {s s' : Store} {items written : List Mapping}
    (hfilled : ∀ item ∈ items, Filled item)
    (h : saveItemsAtomic w s (items.map Mapping.document) = .ok (written, s')) :
    Saved w s' items := by
  obtain ⟨⟨staged, g⟩, hstage, h⟩ := exists_of_bind_eq_ok h
  obtain ⟨rfl, rfl⟩ := Prod.mk.inj (Except.ok.inj h)
  obtain rfl := validateItems_of_filled hfilled (stageItems_eq_ok hstage).1
  refine ⟨hfilled, publishOps_marker, g, hstage, ?_, ?_⟩
  · exact applyAll_publishOps List.mem_cons_self (by decide)
  · intro hexport
    exact applyAll_publishOps_of_export hexport (by rw [hexport]; decide)

namespace Saved

variable {w : StoreEnv} {s : Store} {items : List Mapping}

section

variable (h : Saved w s items)
include h

theorem save :
    ∃ s', saveItemsAtomic w s (items.map Mapping.document) = .ok (items, s') := by
  obtain ⟨g, hstage, -, -⟩ := h.files
  refine ⟨s.applyAll (publishOps w s g none), ?_⟩
  unfold saveItemsAtomic
  rw [hstage]
  rfl

theorem isSome_tasks : (s.file .tasks).isSome = true := by
  obtain ⟨g, -, htasks, -⟩ := h.files
  rw [htasks]
  rfl

theorem of_loadItems {recoverPublish : Bool} {others : List Mapping} {s' : Store}
    (hload : loadItems w recoverPublish s = .ok (others, s')) :
    others = items ∧ s' = s ∧ ∀ item ∈ items, OneLine item.document.1 := by
  obtain ⟨g, hstage, htasks, -⟩ := h.files
  obtain ⟨hvalid, hgeneration⟩ := stageItems_eq_ok hstage
  have htext := (stagedGeneration_eq_ok (checkedGeneration_eq_ok hgeneration).1).1
  have hread : readItems s (s.file .tasks) = .ok (others, s') := by
    unfold loadItems at hload
    rw [if_pos h.isSome_tasks, recoverInterruptedPublish_of_marker h.marker] at hload
    cases recoverPublish with
    | true => exact hload
    | false => exact hload
  unfold readItems at hread
  cases hparse : parseJsonl "tasks.jsonl" (s.file .tasks) with
  | error e =>
    rw [hparse] at hread
    cases hread
  | ok parsed =>
    rw [hparse] at hread
    obtain ⟨rfl, rfl⟩ := Prod.mk.inj (Except.ok.inj hread)
    rw [htasks] at hparse
    obtain ⟨hsame, hone⟩ := Holds.of_text hvalid htext ⟨parsed.2, hparse⟩
    exact ⟨hsame, rfl, hone⟩

section

variable (hone : ∀ item ∈ items, OneLine item.document.1)
include hone

theorem loadItems_eq (recoverPublish : Bool) :
    loadItems w recoverPublish s = .ok (items, s) := by
  obtain ⟨g, hstage, htasks, -⟩ := h.files
  obtain ⟨linesById, hparse⟩ := holds_generation hstage hone
  have hread : readItems s (s.file .tasks) = .ok (items, s) := by
    unfold readItems
    rw [htasks, hparse]
    rfl
  unfold loadItems
  rw [if_pos h.isSome_tasks, recoverInterruptedPublish_of_marker h.marker]
  cases recoverPublish with
  | true => exact hread
  | false => exact hread

theorem snapshotLastGood_eq :
    snapshotLastGood w true s = .ok () := by
  obtain ⟨g, hstage, htasks, hmirror⟩ := h.files
  obtain ⟨linesById, hparse⟩ := holds_generation hstage hone
  obtain ⟨hvalid, hgeneration⟩ := stageItems_eq_ok hstage
  have hchecked := (checkedGeneration_eq_ok hgeneration).2
  unfold snapshotLastGood
  unfold runChecker at hchecked
  cases hexport : w.exportEnabled with
  | true =>
    rw [hexport, if_pos rfl] at hchecked
    rw [htasks, hmirror hexport]
    simp only [if_true]
    cases hanswer : w.checker (g.bytes .tasks) (g.bytes .dataJs) with
    | none => rfl
    | some message =>
      rw [hanswer] at hchecked
      cases hchecked
  | false =>
    rw [htasks]
    simp only [Bool.false_eq_true, if_false, hparse, bind, Except.bind, hvalid]
    rfl

/-- **The next mutation** finds the items and the store as they are. -/
theorem openStore_eq (he : e.store = w) :
    openStore e s = .ok (items, s) := by
  subst he
  obtain ⟨data, hdata⟩ := Option.isSome_iff_exists.mp h.isSome_tasks
  unfold openStore
  rw [mutateRecover_of_tasks e.recordSortTime hdata,
    recoverInterruptedPublish_of_marker h.marker]
  show (snapshotLastGood e.store true s >>= fun _ => loadItems e.store false s) = _
  rw [h.snapshotLastGood_eq hone]
  exact h.loadItems_eq hone false

end

end

end Saved

end GoalFlight.Tasks
