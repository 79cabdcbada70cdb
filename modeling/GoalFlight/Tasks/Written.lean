import GoalFlight.Tasks.Minting
import GoalFlight.Tasks.Mutations

/-!
# The fields that mutations write

`get?_change` has every other field of an item as it was, in particular its id, and the
fields that a sort time is read from, which no command writes.
-/

namespace GoalFlight.Tasks

open Json

variable {action field : String} {blockers keys : List String} {items : List Mapping}
  {extra : List (String × Document)}

/-- The fields that an update may write, apart from the breadcrumbs. -/
def plainKeys : List String :=
  ["audit", "blocked_by", "links", "tags", "acceptance", "prompt", "prompt_path", "pattern",
    "lane", "notes", "done"] ++ completionKeys

/-- The fields that an update may write. -/
def changedKeys : List String := "dispatches" :: plainKeys

/-- The fields of a new item. -/
def itemKeys : List String :=
  ["schema_version", "id", "kind", "title", "blocked_by", "links", "done", "tags", "created_at",
    "created_by", "audit", "lane", "acceptance", "prompt", "prompt_path", "pattern", "severity",
    "source", "capture_key", "source_ref", "harvest_source", "harvest_key", "harvest_scope",
    "import_key", "import_source", "import_draft_id", "original_draft_id", "review_item_id",
    "review_dispatch_id", "review_breadcrumb_key", "review_bug_key", "review_findings_ref"]

variable {key : String} {item item' : Mapping} {st : Stamp}

/-! ### The parts of an update -/

theorem ne_of_notMem (h : key ∉ keys) : ∀ other ∈ keys, key ≠ other := by
  rintro other hmem rfl
  exact h hmem

theorem notMem_of_subset (h : key ∉ plainKeys) (hsub : keys ⊆ plainKeys) :
    key ∉ keys := fun hmem => h (hsub hmem)

theorem get?_pushTo {entry : Document} (h : pushTo field entry item = .ok item')
    (hne : key ≠ field) : item'.get? key = item.get? key := by
  unfold pushTo at h
  split at h
  · cases h
  · rename_i pushed hpushed
    cases h
    exact (Mapping.push_eq_some hpushed).2 key hne

theorem get?_appendAudit (h : appendAudit action st extra item = .ok item')
    (hne : key ≠ "audit") :
    item'.get? key = item.get? key := get?_pushTo h hne

theorem get?_setPresent (values : String → Document) (item : Mapping) (h : key ∉ keys) :
    (setPresent values keys item).get? key = item.get? key := by
  unfold setPresent
  induction keys generalizing item with
  | nil => rfl
  | cons first rest ih =>
    rw [List.mem_cons, not_or] at h
    rw [List.foldl_cons, ih _ h.2]
    split
    · rfl
    · exact item.get?_set_of_ne h.1 _

theorem get?_mergeTexts (incoming : List String) (item : Mapping) (hne : key ≠ field) :
    (mergeTexts field incoming item).get? key = item.get? key := by
  unfold mergeTexts
  split
  · rfl
  · simp only
    split
    · rfl
    · exact item.get?_set_of_ne hne _

theorem get?_keepElements (keep : Value → Bool) (item : Mapping) (hne : key ≠ field) :
    (keepElements field keep item).get? key = item.get? key := by
  unfold keepElements
  split
  · exact item.get?_set_of_ne hne _
  · exact item.get?_set_of_ne hne _

theorem get?_addBlockers (h : addBlockers blockers item = .ok item')
    (hne : key ≠ "blocked_by") : item'.get? key = item.get? key := by
  induction blockers generalizing item with
  | nil =>
    cases h
    rfl
  | cons blocker rest ih =>
    unfold addBlockers at h
    split at h
    · exact ih h
    · obtain ⟨pushed, hpush, h⟩ := exists_of_bind_eq_ok h
      rw [ih h, get?_pushTo hpush hne]

/-! ### Updates -/

theorem get?_mergeCapture {links tags : List String} {values : String → Document}
    (h : mergeCapture blockers links tags values st item = .ok item')
    (hkey : key ∉ plainKeys) :
    item'.get? key = item.get? key := by
  have hne := ne_of_notMem hkey
  unfold mergeCapture at h
  simp only at h
  split at h
  · cases h
    rfl
  · rw [get?_appendAudit h (hne "audit" (by decide)), get?_setPresent, get?_mergeTexts,
      get?_mergeTexts, get?_mergeTexts]
    · exact hne "blocked_by" (by decide)
    · exact hne "links" (by decide)
    · exact hne "tags" (by decide)
    · exact notMem_of_subset hkey (by decide)

theorem get?_block {on : List String} (h : block on st item = .ok item')
    (hkey : key ∉ plainKeys) : item'.get? key = item.get? key := by
  have hne := ne_of_notMem hkey
  obtain ⟨_, -, h⟩ := exists_of_bind_eq_ok h
  obtain ⟨blocked, hblocked, h⟩ := exists_of_bind_eq_ok h
  rw [get?_appendAudit h (hne "audit" (by decide)),
    get?_addBlockers hblocked (hne "blocked_by" (by decide)),
    Mapping.get?_setDefault_of_ne _ (hne "blocked_by" (by decide))]

theorem get?_unblock {remove : List String} (h : unblock remove st item = .ok item')
    (hkey : key ∉ plainKeys) : item'.get? key = item.get? key := by
  have hne := ne_of_notMem hkey
  obtain ⟨_, -, h⟩ := exists_of_bind_eq_ok h
  rw [get?_appendAudit h (hne "audit" (by decide)),
    get?_keepElements _ _ (hne "blocked_by" (by decide))]

theorem get?_setText {text : String} (h : setText field action text st item = .ok item')
    (hne : key ≠ field) (haudit : key ≠ "audit") : item'.get? key = item.get? key := by
  unfold setText at h
  rw [get?_appendAudit h haudit, Mapping.get?_set_of_ne _ hne]

theorem get?_setBlockedBy (h : setBlockedBy blockers st item = .ok item')
    (hkey : key ∉ plainKeys) : item'.get? key = item.get? key := by
  have hne := ne_of_notMem hkey
  obtain ⟨_, -, h⟩ := exists_of_bind_eq_ok h
  rw [get?_appendAudit h (hne "audit" (by decide)),
    Mapping.get?_set_of_ne _ (hne "blocked_by" (by decide))]

theorem get?_appendNote {text : String} (h : appendNote text st item = .ok item')
    (hkey : key ∉ plainKeys) : item'.get? key = item.get? key := by
  have hne := ne_of_notMem hkey
  obtain ⟨noted, hnoted, h⟩ := exists_of_bind_eq_ok h
  rw [get?_appendAudit h (hne "audit" (by decide)), get?_pushTo hnoted (hne "notes" (by decide))]

theorem get?_appendBreadcrumb {crumb : Document}
    (h : appendBreadcrumb crumb action extra st item = .ok item') (hkey : key ∉ changedKeys) :
    item'.get? key = item.get? key := by
  have hne := ne_of_notMem hkey
  obtain ⟨pushed, hpushed, h⟩ := exists_of_bind_eq_ok h
  rw [get?_appendAudit h (hne "audit" (by decide)),
    get?_pushTo hpushed (hne "dispatches" (by decide))]

theorem get?_reopen {dispatch reason : String} (h : reopen dispatch reason st item = .ok item')
    (hkey : key ∉ plainKeys) : item'.get? key = item.get? key := by
  have hne := ne_of_notMem hkey
  unfold reopen at h
  split at h
  · rw [get?_appendAudit h (hne "audit" (by decide)), Mapping.get?_foldl_pop,
      Mapping.get?_set_of_ne _ (hne "done" (by decide))]
    intro hmem
    exact hkey (List.mem_append_right _ hmem)
  · cases h
    rfl

theorem get?_markAccepted {dispatch findings : Document}
    (h : markAccepted dispatch findings st item = .ok item') (hkey : key ∉ plainKeys) :
    item'.get? key = item.get? key := by
  have hne := ne_of_notMem hkey
  unfold markAccepted at h
  simp only at h
  rw [get?_appendAudit h (hne "audit" (by decide))]
  have hupdate : ∀ fields : List (String × Document), fields.map Prod.fst ⊆ plainKeys →
      (item.update fields).get? key = item.get? key := by
    intro fields hsub
    exact Mapping.get?_update_of_notMem _ fun hmem => hkey (hsub hmem)
  split
  · rw [Mapping.get?_set_of_ne _ (hne "accepted_review_findings_ref" (by decide))]
    exact hupdate _ (by simp only [List.map_cons, List.map_nil]; decide)
  · exact hupdate _ (by simp only [List.map_cons, List.map_nil]; decide)

theorem get?_writeDone {resolution : String} (h : writeDone resolution st item = .ok item')
    (hkey : key ∉ plainKeys) : item'.get? key = item.get? key := by
  have hne := ne_of_notMem hkey
  unfold writeDone at h
  simp only at h
  rw [get?_appendAudit h (hne "audit" (by decide)),
    Mapping.get?_set_of_ne _ (hne "resolution" (by decide)),
    Mapping.get?_setDefault_of_ne _ (hne "closed_by" (by decide)),
    Mapping.get?_setDefault_of_ne _ (hne "closed_at" (by decide)),
    Mapping.get?_update_of_notMem]
  simp only [List.map_cons, List.map_nil]
  exact notMem_of_subset hkey (by decide)

theorem get?_markDone {force : Bool} {note resolution : String}
    (h : markDone items force note resolution st item = .ok item') (hkey : key ∉ plainKeys) :
    item'.get? key = item.get? key := by
  unfold markDone at h
  split at h
  · cases h
  obtain ⟨blockers, -, h⟩ := exists_of_bind_eq_ok h
  simp only at h
  split at h
  · cases h
  obtain ⟨noted, hnoted, h⟩ := exists_of_bind_eq_ok h
  rw [get?_writeDone h hkey]
  split at hnoted
  · cases hnoted
    rfl
  · exact get?_appendNote hnoted hkey

/-- **The other fields are as they were.** -/
theorem get?_change {c : ItemChange} (h : c.apply items st item = .ok item')
    (hkey : key ∉ changedKeys) : item'.get? key = item.get? key := by
  have hne := ne_of_notMem hkey
  have hplain : key ∉ plainKeys := fun hmem => hkey (List.mem_cons_of_mem _ hmem)
  cases c with
  | mergeCapture blockers links tags values => exact get?_mergeCapture h hplain
  | block on => exact get?_block h hplain
  | unblock remove => exact get?_unblock h hplain
  | lane text => exact get?_setText h (hne "lane" (by decide)) (hne "audit" (by decide))
  | promptPath path =>
    exact get?_setText h (hne "prompt_path" (by decide)) (hne "audit" (by decide))
  | blockedBy blockers => exact get?_setBlockedBy h hplain
  | note text => exact get?_appendNote h hplain
  | done force text resolution => exact get?_markDone h hplain
  | breadcrumb crumb action extra => exact get?_appendBreadcrumb h hkey
  | reopen dispatch reason => exact get?_reopen h hplain
  | accept dispatch findings => exact get?_markAccepted h hplain

/-! ### Lists of items -/

theorem map_updateItem {α : Type} {g : Mapping → α} {itemId : String}
    {f : Mapping → Except TaskError Mapping} {edited : List Mapping}
    (hf : ∀ item item', f item = .ok item' → g item' = g item)
    (h : updateItem itemId f items = .ok edited) : edited.map g = items.map g := by
  induction items generalizing edited with
  | nil => cases h
  | cons item rest ih =>
    unfold updateItem at h
    split at h
    · cases hitem : f item with
      | error e =>
        rw [hitem] at h
        cases h
      | ok updated =>
        rw [hitem] at h
        cases h
        rw [List.map_cons, List.map_cons, hf item updated hitem]
    · cases hrest : updateItem itemId f rest with
      | error e =>
        rw [hrest] at h
        cases h
      | ok others =>
        rw [hrest] at h
        cases h
        rw [List.map_cons, List.map_cons, ih hrest]

theorem idOf_congr (h : item'.get? "id" = item.get? "id") : idOf item' = idOf item := by
  unfold idOf
  rw [h]

/-! ### New items -/

/-- The item has no field but these. -/
def FieldsIn (keys : List String) (item : Mapping) : Prop := ∀ key, key ∉ keys → item.get? key = none

theorem fieldsIn_update (fields : List (String × Document)) (h : FieldsIn itemKeys item)
    (hsub : fields.map Prod.fst ⊆ itemKeys) : FieldsIn itemKeys (item.update fields) := by
  intro key hkey
  rw [Mapping.get?_update_of_notMem _ fun hmem => hkey (hsub hmem)]
  exact h key hkey

theorem fieldsIn_set (field : String) (value : Document) (h : FieldsIn itemKeys item)
    (hfield : field ∈ itemKeys) : FieldsIn itemKeys (item.set field value) := by
  intro key hkey
  rw [Mapping.get?_set_of_ne _ (ne_of_notMem hkey field hfield)]
  exact h key hkey

theorem fieldsIn_setPresent (values : String → Document) (keys : List String)
    (h : FieldsIn itemKeys item) (hsub : keys ⊆ itemKeys) :
    FieldsIn itemKeys (setPresent values keys item) := by
  intro key hkey
  rw [get?_setPresent _ _ fun hmem => hkey (hsub hmem)]
  exact h key hkey

theorem fieldsIn_makeItem (spec : ItemSpec) (st : Stamp) (auditAction : String) :
    FieldsIn itemKeys (makeItem spec st auditAction) := by
  have hbase : FieldsIn itemKeys Mapping.empty := fun _ _ => rfl
  have hfields : ∀ fields : List (String × Document), fields.map Prod.fst =
      ["schema_version", "id", "kind", "title", "blocked_by", "links", "done", "tags",
        "created_at", "created_by", "audit"] → FieldsIn itemKeys (Mapping.empty.update fields) := by
    intro fields hkeys
    exact fieldsIn_update fields hbase (by rw [hkeys]; decide)
  unfold makeItem
  simp only
  split
  · exact hfields _ rfl
  · exact fieldsIn_set "lane" _ (hfields _ rfl) (by decide)

theorem fieldsIn_appendAudit (h : FieldsIn itemKeys item)
    (haudit : appendAudit action st extra item = .ok item') :
    FieldsIn itemKeys item' := by
  intro key hkey
  rw [get?_appendAudit haudit (ne_of_notMem hkey "audit" (by decide))]
  exact h key hkey

theorem fieldsIn_newItem (spec : ItemSpec) (st : Stamp) (values : String → Document)
    (captureKey : Option String) : FieldsIn itemKeys (newItem spec st values captureKey) := by
  have hset := fieldsIn_setPresent values ["acceptance", "prompt", "prompt_path", "pattern",
    "severity", "source"] (fieldsIn_makeItem spec st "new") (by decide)
  unfold newItem
  simp only
  split
  · exact hset
  · exact fieldsIn_set "capture_key" _ hset (by decide)

theorem fieldsIn_harvestItem {spec : ItemSpec} {candidate : String → Document}
    (h : harvestItem spec st candidate = .ok item') : FieldsIn itemKeys item' :=
  fieldsIn_appendAudit
    (fieldsIn_setPresent candidate _ (fieldsIn_makeItem spec st "new") (by decide)) h

theorem fieldsIn_importItem (spec : ItemSpec) (st : Stamp) (importKey source draftId : String) :
    FieldsIn itemKeys (importItem spec st importKey source draftId) :=
  fieldsIn_update _ (fieldsIn_makeItem _ st "import")
    (by simp only [List.map_cons, List.map_nil]; decide)

theorem fieldsIn_ite {p : Prop} [Decidable p] {other : Mapping} (h : FieldsIn itemKeys item)
    (hother : FieldsIn itemKeys other) : FieldsIn itemKeys (if p then item else other) := by
  split
  · exact h
  · exact hother

theorem fieldsIn_bugItem {spec : ItemSpec} {report : BugReport}
    (h : bugItem spec st report = .ok item') : FieldsIn itemKeys item' := by
  unfold bugItem at h
  simp only at h
  refine fieldsIn_appendAudit ?_ h
  have hfirst := fieldsIn_update [("source", textValue "review"),
    ("pattern", textValue report.pattern)] (fieldsIn_makeItem spec st "new")
    (by simp only [List.map_cons, List.map_nil]; decide)
  have hsecond : FieldsIn itemKeys (if report.severity = "" then _ else _) :=
    fieldsIn_ite hfirst (fieldsIn_set "severity" (textValue report.severity) hfirst (by decide))
  have hthird := fieldsIn_update [("review_item_id", textValue report.itemId),
    ("review_dispatch_id", textValue report.dispatchId),
    ("review_breadcrumb_key", textValue report.breadcrumbKey),
    ("review_bug_key", textValue report.bugKey)] hsecond
    (by simp only [List.map_cons, List.map_nil]; decide)
  exact fieldsIn_ite hthird (fieldsIn_set "review_findings_ref" _ hthird (by decide))

end GoalFlight.Tasks
