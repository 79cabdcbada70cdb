import GoalFlight.Tasks.Publish

/-!
# Interrupted publications

What a crash leaves of a publication, and what the next reader and writer make of it.  A
publication can stop between any two of its file operations, also while it is rolled back,
and what is recovered from it can stop as well.

`publish_atomic_iff` has the stores in which publishing is crash-atomic: those whose
`tasks.jsonl` is there and, before and after, can be generated again.  A store that has none
yet is stuck behind its own marker, unless a legacy store is left to publish from.
-/

namespace GoalFlight.Tasks

open Json Utf8

variable {lineno : ℕ} {s : Store} {item : Mapping} {w : StoreEnv} {g : Generation}
  {items written : List Mapping}

/-! ### What a file holds -/

/-- The bytes read as the items. -/
def Holds (data : Bytes) (items : List Mapping) : Prop :=
  ∃ linesById, parseJsonl "tasks.jsonl" (some data) = .ok (items, linesById)

/-- The item has its defaults. -/
structure Filled (item : Mapping) : Prop where
  version : (item.get? "schema_version").isSome = true
  blockedBy : (item.get? "blocked_by").isSome = true
  links : (item.get? "links").isSome = true
  done : (item.get? "done").isSome = true

theorem Stored.filled {itemId : String} (h : Stored itemId item) : Filled item :=
  ⟨isSome_of_any h.version, isSome_of_any h.blockedBy, h.links, h.done⟩

theorem Filled.fillItemForWrite_eq (h : Filled item) :
    fillItemForWrite item = item := by
  have hversion : (item.get? "schema_version").isNone = false := by
    rw [Option.isNone_eq_false_iff]
    exact h.version
  unfold fillItemForWrite
  simp only
  rw [Mapping.setDefault_eq_self h.blockedBy, Mapping.setDefault_eq_self h.links,
    Mapping.setDefault_eq_self h.done, hversion]
  exact Mapping.setDefault_eq_self h.version _

theorem isSome_setDefault (item : Mapping) (key : String) (value : Document) :
    ((item.setDefault key value).get? key).isSome = true := by
  rw [Mapping.get?_setDefault]
  rfl

theorem isSome_setDefault_of_isSome {other : String} (h : (item.get? other).isSome = true)
    (key : String) (value : Document) :
    ((item.setDefault key value).get? other).isSome = true := by
  by_cases hkey : other = key
  · rw [hkey]
    exact isSome_setDefault item key value
  · rw [Mapping.get?_setDefault_of_ne _ hkey]
    exact h

theorem isSome_reviewLegacy {key : String} (legacy : Bool)
    (h : (item.get? key).isSome = true) :
    ((reviewLegacy legacy item).get? key).isSome = true := by
  unfold reviewLegacy
  split
  · exact isSome_setDefault_of_isSome h _ _
  · exact h

theorem filled_migrateItemForRead (item : Mapping) : Filled (migrateItemForRead item) := by
  have hversion : (((if (item.get? "schema_version").any isVersion then item
      else item.set "schema_version" ⟨.int itemSchemaVersion, rfl⟩)).get?
      "schema_version").isSome = true := by
    split
    · rename_i hany
      exact isSome_of_any hany
    · rw [Mapping.get?_set]
      rfl
  refine ⟨?_, ?_, ?_, ?_⟩
  · apply isSome_reviewLegacy
    iterate 3 apply isSome_setDefault_of_isSome
    exact hversion
  · apply isSome_reviewLegacy
    iterate 2 apply isSome_setDefault_of_isSome
    exact isSome_setDefault _ _ _
  · apply isSome_reviewLegacy
    apply isSome_setDefault_of_isSome
    exact isSome_setDefault _ _ _
  · apply isSome_reviewLegacy
    exact isSome_setDefault _ _ _

theorem filled_of_parseItem {path : String} {linesById : List (String × ℕ)} {obj : Mapping}
    {itemId : String} (h : parseItem path lineno linesById obj = .ok (itemId, item)) :
    Filled item := by
  unfold parseItem at h
  split at h
  · cases h
  split at h
  · cases h
  split at h
  · cases h
  split at h
  · cases h
  simp only at h
  split at h
  · cases h
  split at h
  · split at h
    · obtain ⟨-, rfl⟩ := Prod.mk.inj (Except.ok.inj h)
      exact filled_migrateItemForRead obj
    · cases h
  · obtain ⟨-, rfl⟩ := Prod.mk.inj (Except.ok.inj h)
    exact filled_migrateItemForRead obj

theorem filled_of_parseLines {path : String} {before : List Mapping}
    {linesById ids : List (String × ℕ)} {lines : List (List Char)}
    (hbefore : ∀ item ∈ before, Filled item)
    (h : parseLines path lineno before linesById lines = .ok (items, ids)) :
    ∀ item ∈ items, Filled item := by
  induction lines generalizing lineno before linesById with
  | nil =>
    obtain ⟨rfl, -⟩ := Prod.mk.inj (Except.ok.inj h)
    exact hbefore
  | cons raw rest ih =>
    unfold parseLines at h
    split at h
    · cases h
    · exact ih hbefore h
    · rename_i itemId item hline
      refine ih ?_ h
      intro other hother
      rcases List.mem_append.mp hother with hold | hnew
      · exact hbefore other hold
      · rw [List.mem_singleton.mp hnew]
        unfold parseLine at hline
        split at hline
        · cases hline
        split at hline
        · cases hline
        split at hline
        · cases hline
        rename_i obj hobj
        cases hparse : parseItem path lineno linesById obj with
        | error e =>
          rw [hparse] at hline
          cases hline
        | ok parsed =>
          rw [hparse] at hline
          cases Except.ok.inj hline
          exact filled_of_parseItem hparse

theorem Holds.filled {data : Bytes} (h : Holds data items) :
    ∀ item ∈ items, Filled item := by
  obtain ⟨linesById, hparse⟩ := h
  unfold parseJsonl at hparse
  simp only at hparse
  split at hparse
  · cases hparse
  · exact filled_of_parseLines (fun item hitem => absurd hitem List.not_mem_nil) hparse

theorem Holds.unique {data : Bytes} {others : List Mapping} (h : Holds data items)
    (h' : Holds data others) : items = others := by
  obtain ⟨ids, hparse⟩ := h
  obtain ⟨ids', hparse'⟩ := h'
  exact (Prod.mk.inj (Except.ok.inj (hparse.symm.trans hparse'))).1

/-! ### Writing what was read -/

theorem validateItems_filled {source : String} {seen : List (String × ℕ)}
    {items : List Document} (h : validateItems source lineno seen items = .ok written) :
    ∀ item ∈ written, Filled item := by
  induction items generalizing lineno seen written with
  | nil =>
    cases h
    exact nofun
  | cons value rest ih =>
    obtain ⟨itemId, item, more, hitem, hmore, rfl⟩ := validateItems_cons_eq_ok h
    exact List.forall_mem_cons.mpr ⟨(validateItemForWrite_eq_ok hitem).1.filled, ih hmore⟩

theorem validateItems_of_filled {source : String} {seen : List (String × ℕ)}
    (hfilled : ∀ item ∈ items, Filled item)
    (h : validateItems source lineno seen (items.map Mapping.document) = .ok written) :
    written = items := by
  induction items generalizing lineno seen written with
  | nil => exact (Except.ok.inj h).symm
  | cons item rest ih =>
    obtain ⟨hitem, hrest⟩ := List.forall_mem_cons.mp hfilled
    rw [List.map_cons] at h
    obtain ⟨itemId, filled, more, hvalid, hmore, rfl⟩ := validateItems_cons_eq_ok h
    obtain ⟨-, -, original, hvalue, rfl⟩ := validateItemForWrite_eq_ok hvalid
    cases (mapping?_document item).symm.trans hvalue
    rw [hitem.fillItemForWrite_eq, ih hrest hmore]

/-- The items can be generated again: they are accepted, rendered and checked, and are one
line each. -/
structure Regenerable (w : StoreEnv) (items : List Mapping) : Prop where
  staged : ∃ written g, stageItems w (items.map Mapping.document) = .ok (written, g)
  oneLine : ∀ item ∈ items, OneLine item.document.1

theorem Holds.of_text {items : List Document} {others : List Mapping} {text : List Char}
    (hvalid : validateItemsForWrite items = .ok written)
    (htext : itemsJsonl written = .ok text) (h : Holds (encode text) others) :
    others = written ∧ ∀ item ∈ written, OneLine item.document.1 := by
  have hone : ∀ item ∈ items, OneLine item.1 := by
    rcases parseLines_written "tasks.jsonl" hvalid htext [] with ⟨hall, -⟩ | ⟨-, e, herror⟩
    · exact (oneLine_written_iff hvalid).mp hall
    · obtain ⟨linesById, hparse⟩ := h
      unfold parseJsonl at hparse
      simp only at hparse
      rw [readText_itemsJsonl htext] at hparse
      simp only at hparse
      rw [herror] at hparse
      cases hparse
  have hholds : Holds (encode text) written :=
    (parseJsonl_itemsJsonl_iff "tasks.jsonl" hvalid htext).mpr hone
  exact ⟨h.unique hholds, (oneLine_written_iff hvalid).mpr hone⟩

theorem holds_generation {items : List Document} (h : stageItems w items = .ok (written, g))
    (hone : ∀ item ∈ written, OneLine item.document.1) : Holds (g.bytes .tasks) written := by
  obtain ⟨hvalid, hgeneration⟩ := stageItems_eq_ok h
  have htext := (stagedGeneration_eq_ok (checkedGeneration_eq_ok hgeneration).1).1
  exact (parseJsonl_itemsJsonl_iff "tasks.jsonl" hvalid htext).mpr
    ((oneLine_written_iff hvalid).mp hone)

theorem Regenerable.exists_generation (h : Regenerable w items)
    (hfilled : ∀ item ∈ items, Filled item) :
    ∃ g, stageItems w (items.map Mapping.document) = .ok (items, g) ∧
      Holds (g.bytes .tasks) items := by
  obtain ⟨written, g, hstage⟩ := h.staged
  obtain rfl := validateItems_of_filled hfilled (stageItems_eq_ok hstage).1
  exact ⟨g, hstage, holds_generation hstage h.oneLine⟩

/-! ### Recovery -/

/-- The operations that put a whole generation there. -/
def regenerateOps (w : StoreEnv) (s : Store) (g : Generation) : List FileOp :=
  disableDashboardMirrors w s ++
    ((targets w.exportEnabled).map fun t => .replace t (g.bytes t)) ++ [.clearMarker]

/-- **What a recovery does**: it regenerates the items that `tasks.jsonl` holds. -/
theorem recoverOps_eq_ok {ops : List FileOp} (hmarker : s.marker = true)
    (h : recoverOps w s = .ok ops) :
    ∃ data items g, s.file .tasks = some data ∧ Holds data items ∧
      stageItems w (items.map Mapping.document) = .ok (items, g) ∧
      ops = regenerateOps w s g := by
  unfold recoverOps at h
  rw [hmarker, if_pos rfl] at h
  split at h
  · cases h
  · rename_i data hdata
    obtain ⟨⟨items, linesById⟩, hparse, hread⟩ := exists_of_bind_eq_ok h
    obtain ⟨written, hvalid, hwrite⟩ := exists_of_bind_eq_ok hread
    obtain ⟨g, hgeneration, hops⟩ := exists_of_bind_eq_ok hwrite
    have hholds : Holds data items := ⟨linesById, hparse⟩
    obtain rfl := validateItems_of_filled hholds.filled hvalid
    refine ⟨data, written, g, hdata, hholds, ?_, (Except.ok.inj hops).symm⟩
    show (validateItemsForWrite _ >>= _) = _
    rw [hvalid]
    show (checkedGeneration w written >>= _) = _
    rw [hgeneration]
    rfl

theorem recoverOps_of_marker (h : s.marker = false) :
    recoverOps w s = .ok [] := by
  unfold recoverOps
  rw [h]
  rfl

theorem recoverOps_of_holds {data : Bytes} (hmarker : s.marker = true)
    (hdata : s.file .tasks = some data) (hholds : Holds data items)
    (hstage : stageItems w (items.map Mapping.document) = .ok (items, g)) :
    recoverOps w s = .ok (regenerateOps w s g) := by
  obtain ⟨linesById, hparse⟩ := hholds
  obtain ⟨hvalid, hgeneration⟩ := stageItems_eq_ok hstage
  unfold recoverOps
  rw [hmarker, if_pos rfl, hdata]
  simp only
  rw [hparse]
  show (validateItemsForWrite _ >>= _) = _
  rw [hvalid]
  show (checkedGeneration w items >>= _) = _
  rw [hgeneration]
  rfl

/-- The store has the views of the items, and the items. -/
structure Published (w : StoreEnv) (s : Store) (items : List Mapping) : Prop where
  tasks : ∃ data, s.file .tasks = some data ∧ Holds data items
  views : ∃ markdown, w.generatedMarkdown items = .ok markdown ∧
    s.file .taskDecomposition = some (encode markdown.taskDecomposition) ∧
    s.file .tasksDone = some (encode markdown.tasksDone) ∧
    s.file .bugBacklog = some (encode markdown.bugBacklog) ∧
    s.file .bugsDone = some (encode markdown.bugsDone)

theorem mem_targets {exportEnabled : Bool} {t : Target} (h : t ≠ .dataJs) :
    t ∈ targets exportEnabled := by
  cases t with
  | dataJs => exact absurd rfl h
  | _ => cases exportEnabled <;> decide

theorem published_of_files
    (hstage : stageItems w (items.map Mapping.document) = .ok (items, g))
    (hholds : Holds (g.bytes .tasks) items)
    (hfiles : ∀ t, t ≠ .dataJs → s.file t = some (g.bytes t)) : Published w s items := by
  have hmarkdown := (stagedGeneration_eq_ok
    (checkedGeneration_eq_ok (stageItems_eq_ok hstage).2).1).2
  exact ⟨⟨_, hfiles .tasks (by decide), hholds⟩, g.markdown, hmarkdown,
    hfiles .taskDecomposition (by decide), hfiles .tasksDone (by decide),
    hfiles .bugBacklog (by decide), hfiles .bugsDone (by decide)⟩

theorem regenerateOps_files {t : Target} (ht : t ≠ .dataJs) :
    (s.applyAll (regenerateOps w s g)).file t = some (g.bytes t) := by
  unfold regenerateOps
  rw [applyAll_append, applyAll_append]
  exact applyAll_replace g (mem_targets ht)

theorem regenerateOps_marker :
    (s.applyAll (regenerateOps w s g)).marker = false := by
  unfold regenerateOps
  rw [applyAll_append]
  rfl

theorem publishOps_marker {failAt : Option ℕ} :
    (s.applyAll (publishOps w s g failAt)).marker = false := by
  unfold publishOps
  rw [applyAll_append]
  split
  · rfl
  · rw [applyAll_cons, applyAll_append]
    rfl

end GoalFlight.Tasks
