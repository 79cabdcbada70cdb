import GoalFlight.Tasks.Reimport

/-!
# Whether an import is idempotent

Importing a file again changes nothing exactly when the items that were there can be read again, the
file has no errors among the items that it was imported to, and no new record has two references
that resolve to one item (`import_idempotent_iff`).  The last is what fails in practice: the item
gets its blockers without repetitions, and is compared with the record, which still has both.

The second condition is void unless the import migrates a legacy store, where the items that it
checks are not those that it keeps.
-/

namespace GoalFlight.Tasks

open Json Utf8

variable {items : List Mapping} {records : List SidecarRecord}

/-! ### What the store holds -/

section State

variable (e : ImportEnv) (s : TaskState)

/-- The items that `load_items` reads. -/
def TaskState.seenItems : List Mapping :=
  match loadItems e.store true s.store with
  | .ok (items, _) => items
  | .error _ => []

/-- The items that a mutation finds under the lock. -/
def TaskState.liveItems : List Mapping :=
  match loadItems e.store true s.store >>= fun loaded => openStore e loaded.2 with
  | .ok (items, _) => items
  | .error _ => []

/-- The records of a file. -/
def sidecarRecords (sidecar : Bytes) : List SidecarRecord :=
  match readImportRecords e sidecar with
  | .ok (records, _) => records
  | .error _ => []

variable {e s} in
theorem sidecarRecords_eq {sidecar : Bytes} {errors : List String}
    (h : readImportRecords e sidecar = .ok (records, errors)) :
    sidecarRecords e sidecar = records := by
  unfold sidecarRecords
  rw [h]

variable {e s} in
theorem liveItems_eq (opened : Store)
    (h : (loadItems e.store true s.store >>= fun loaded => openStore e loaded.2) =
      .ok (items, opened)) : s.liveItems e = items := by
  unfold TaskState.liveItems
  rw [h]

/-- **What the writers of a store keep**: its items are tidy, and none is lost when a legacy
store is migrated. -/
structure TaskState.Tidy : Prop where
  items : TidyItems (s.liveItems e)
  monotone : (s.seenItems e).map idOf ⊆ (s.liveItems e).map idOf

end State

theorem filled_of_loadItems {w : StoreEnv} {recoverPublish : Bool} {s s' : Store}
    (h : loadItems w recoverPublish s = .ok (items, s')) :
    ∀ item ∈ items, Filled item := by
  have hread {t t' : Store} {file : Option Bytes} (h : readItems t file = .ok (items, t')) :
      ∀ item ∈ items, Filled item := by
    unfold readItems at h
    cases hparse : parseJsonl "tasks.jsonl" file with
    | error e =>
      rw [hparse] at h
      cases h
    | ok parsed =>
      rw [hparse] at h
      obtain ⟨rfl, -⟩ := Prod.mk.inj (Except.ok.inj h)
      cases file with
      | none =>
        cases hparse
        exact nofun
      | some data => exact Holds.filled ⟨parsed.2, hparse⟩
  unfold loadItems at h
  split at h
  · split at h
    · obtain ⟨recovered, -, h⟩ := exists_of_bind_eq_ok h
      exact hread h
    · exact hread h
  · exact hread h

theorem raised_eq_ok {α : Type} {result : Except TaskError α} {a : α}
    (h : raised result = .ok a) : result = .ok a := by
  cases result with
  | error e => cases h
  | ok b => exact congrArg Except.ok (Except.ok.inj h)

/-! ### An import that went through -/

/-- **What an import went through.** -/
structure Went (e : ImportEnv) (sidecar : Bytes) (c : ImportCall) (s : TaskState)
    (summary : ImportSummary) (s' : TaskState) (allocated : List String) : Prop where
  read : readImportRecords e sidecar = .ok (sidecarRecords e sidecar, [])
  seen : importErrors (sidecarRecords e sidecar) (s.seenItems e) [] = .ok []
  accepted : Accepted e (s.liveItems e) (sidecarRecords e sidecar) allocated
  summary : summary =
    { imported := (createdOf (s.liveItems e) (sidecarRecords e sidecar)).length
      skippedDuplicates := (sidecarRecords e sidecar).length -
        (createdOf (s.liveItems e) (sidecarRecords e sidecar)).length
      idMapping := idMapping (keyToId (s.liveItems e)
        (createdOf (s.liveItems e) (sidecarRecords e sidecar)) allocated)
          (sidecarRecords e sidecar) }
  saved : Saved e.store s'.store
    (updatedItems c (s.liveItems e) (sidecarRecords e sidecar) allocated)
  /-- The counters were advanced, for which the new items were read. -/
  advanced : createdOf (s.liveItems e) (sidecarRecords e sidecar) ≠ [] →
    ∀ item ∈ updatedItems c (s.liveItems e) (sidecarRecords e sidecar) allocated,
      OneLine item.document.1
  kinds : ∀ r ∈ sidecarRecords e sidecar, r.kind ∈ importKinds

variable {e : ImportEnv} {c : ImportCall}

theorem importUpdate_eq_ok {seq : Family → ℕ}
    {update : ImportUpdate} (h : importUpdate e c records seq items = .ok update) :
    checkLive (keyIn (liveBlockerKeys records items)) (existingByKey items) records = .ok () ∧
      ∃ allocated, previewImportIds e seq items
          ((createdOf items records).map fun r => familyOfKind r.kind) = some allocated ∧
        update =
          { summary :=
              { imported := (createdOf items records).length
                skippedDuplicates := records.length - (createdOf items records).length
                idMapping := idMapping (keyToId items (createdOf items records) allocated) records }
            reservedFamilies := (createdOf items records).map fun r => familyOfKind r.kind
            items := updatedItems c items records allocated } := by
  unfold importUpdate at h
  obtain ⟨⟨⟩, hlive, h⟩ := exists_of_bind_eq_ok h
  simp only at h
  split at h
  · cases h
  · rename_i allocated hallocated
    exact ⟨hlive, allocated, hallocated, (Except.ok.inj h).symm⟩

theorem Saved.oneLine_of_advanceSeq {store : Store}
    (h : Saved e.store store items) {families : List Family} {seq seq' : Family → ℕ}
    (hfamilies : families ≠ []) (hseq : advanceSeq e families ⟨store, seq⟩ = .ok seq') :
    ∀ item ∈ items, OneLine item.document.1 := by
  unfold advanceSeq at hseq
  rw [if_neg hfamilies] at hseq
  obtain ⟨⟨others, _⟩, hload, -⟩ := exists_of_bind_eq_ok hseq
  exact (h.of_loadItems (raised_eq_ok hload)).2.2

variable {s s' : TaskState} {summary : ImportSummary}

theorem cmdImport_eq_ok {sidecar : Bytes} (h : cmdImport e sidecar c s = .ok (summary, s')) :
    ∃ loaded opened update written,
      readImportRecords e sidecar = .ok (sidecarRecords e sidecar, []) ∧
      importErrors (sidecarRecords e sidecar) (s.seenItems e) [] = .ok [] ∧
      openStore e loaded = .ok (s.liveItems e, opened) ∧
      importUpdate e c (sidecarRecords e sidecar) s.seq (s.liveItems e) = .ok update ∧
      saveItemsAtomic e.store opened (update.items.map Mapping.document) =
        .ok (written, s'.store) ∧
      summary = update.summary ∧
      ∃ seq, advanceSeq e update.reservedFamilies ⟨s'.store, s.seq⟩ = .ok seq := by
  obtain ⟨⟨records, readErrors⟩, hread, h⟩ := exists_of_bind_eq_ok h
  obtain ⟨⟨seen, loaded⟩, hseen, h⟩ := exists_of_bind_eq_ok h
  obtain ⟨errors, herrors, h⟩ := exists_of_bind_eq_ok h
  have hload := raised_eq_ok hseen
  have hrecords := sidecarRecords_eq hread
  have hseenItems : s.seenItems e = seen := by
    unfold TaskState.seenItems
    rw [hload]
  cases errors with
  | cons first more => cases h
  | nil =>
    obtain ⟨⟨items, opened⟩, hopen, h⟩ := exists_of_bind_eq_ok h
    obtain ⟨update, hupdate, h⟩ := exists_of_bind_eq_ok h
    obtain ⟨⟨written, published⟩, hsave, h⟩ := exists_of_bind_eq_ok h
    obtain ⟨seq, hseq, h⟩ := exists_of_bind_eq_ok h
    obtain ⟨rfl, rfl⟩ := Prod.mk.inj (Except.ok.inj h)
    have hliveItems : s.liveItems e = items := by
      refine liveItems_eq opened ?_
      rw [hload]
      exact raised_eq_ok hopen
    obtain ⟨rfl, -⟩ := importErrors_eq_nil_iff.mp herrors
    rw [hrecords, hseenItems, hliveItems]
    exact ⟨loaded, opened, update, written, hread, herrors, raised_eq_ok hopen, hupdate,
      raised_eq_ok hsave, rfl, seq, hseq⟩

theorem forall_mem_zipWith_of_mem {α β γ : Type} {f : α → β → γ} {P : γ → Prop} {as : List α}
    {bs : List β} (h : ∀ a ∈ as, ∀ b, P (f a b)) : ∀ x ∈ List.zipWith f as bs, P x := by
  induction as generalizing bs with
  | nil => exact nofun
  | cons a rest ih =>
    obtain ⟨ha, hrest⟩ := List.forall_mem_cons.mp h
    cases bs with
    | nil => exact nofun
    | cons b more => exact List.forall_mem_cons.mpr ⟨ha b, ih hrest⟩

variable {allocated : List String}

theorem map_importKey?_zipWith (c : ImportCall) (mapping : List (String × String)) (h : ∀ r ∈ records, r.importKey ≠ "")
    (hlength : allocated.length = records.length) :
    (List.zipWith (recordItem c mapping) records allocated).map importKey? =
      records.map fun r => some r.importKey := by
  induction records generalizing allocated with
  | nil => rfl
  | cons r rest ih =>
    cases allocated with
    | nil => cases hlength
    | cons id more =>
      obtain ⟨hr, hrest⟩ := List.forall_mem_cons.mp h
      rw [List.zipWith_cons_cons, List.map_cons, List.map_cons,
        importKey?_recordItem c mapping r id hr, ih hrest (Nat.succ.inj hlength)]

theorem filled_updatedItems
    (h : ∀ item ∈ items, Filled item) :
    ∀ item ∈ updatedItems c items records allocated, Filled item := by
  intro item hitem
  rcases List.mem_append.mp hitem with hold | hnew
  · exact h item hold
  · exact forall_mem_zipWith_of_mem (fun r _ id => filled_recordItem c _ r id) item hnew

theorem went_of_cmdImport {sidecar : Bytes} (htidy : s.Tidy e)
    (h : cmdImport e sidecar c s = .ok (summary, s')) :
    ∃ allocated, Went e sidecar c s summary s' allocated := by
  obtain ⟨loaded, opened, update, written, hread, herrors, hopen, hupdate, hsave, rfl, seq, hseq⟩ :=
    cmdImport_eq_ok h
  obtain ⟨hlive, allocated, hallocated, rfl⟩ := importUpdate_eq_ok hupdate
  obtain ⟨hlength, hdistinct, hminted⟩ := previewImportIds_spec hallocated
  obtain ⟨-, hrefs, -⟩ := importErrors_eq_nil_iff.mp herrors
  have hwell := readImportRecords_eq_ok hread
  have hfilled : ∀ item ∈ s.liveItems e, Filled item := by
    obtain ⟨recovered, -, hopen⟩ := exists_of_bind_eq_ok hopen
    obtain ⟨-, -, hload⟩ := exists_of_bind_eq_ok hopen
    exact filled_of_loadItems hload
  have hsaved := saved_of_saveItemsAtomic (filled_updatedItems hfilled) hsave
  obtain ⟨g, hstage, -⟩ := hsaved.files
  have hvalid := (stageItems_eq_ok hstage).1
  exact ⟨allocated,
    { read := hread
      seen := herrors
      accepted :=
        { wellRead := fun r hr => (hwell r hr).1
          tidy := htidy.items
          nodup := (ids_validateItems hvalid).2.1.sublist
            ((List.sublist_append_left _ _).map idOf)
          present := fun item hitem =>
            present_of_validateItems hvalid item (List.mem_append_left _ hitem)
          refs := fun r hr ref href =>
            (hrefs r hr ref href).imp_right fun hmem => htidy.monotone hmem
          length := hlength.trans (List.length_map _)
          distinct := hdistinct
          minted := hminted
          live := by
            rw [liveBlockerKeys_eq htidy.items] at hlive
            exact checkLive_eq_ok_iff.mp hlive }
      summary := rfl
      saved := hsaved
      advanced := fun hcreated =>
        hsaved.oneLine_of_advanceSeq (fun hnil => hcreated (List.map_eq_nil_iff.mp hnil))
          hseq
      kinds := fun r hr => (hwell r hr).2 rfl }⟩

/-! ### The first import -/

/-- **What an import leaves**: the items that were there, and one for each content key that
they did not have, its drafts replaced by the ids of the items that they resolved to. -/
structure ImportsEach (e : ImportEnv) (records : List SidecarRecord) (items created : List Mapping)
    (summary : ImportSummary) : Prop where
  imported : summary.imported = created.length
  /-- A content key stands for a kind and a normalised title. -/
  content : ∀ r ∈ records, ∀ other ∈ records, r.importKey = other.importKey ↔
    r.kind = other.kind ∧ normKey e.lower r.title = normKey e.lower other.title
  once : (created.map importKey?).Nodup
  keys : ∀ key, some key ∈ created.map importKey? ↔
    key ∈ records.map SidecarRecord.importKey ∧ key ∉ (liveKeys items).map Prod.fst
  ids : ((items ++ created).map idOf).Nodup
  /-- Each draft resolved to an item of its key. -/
  resolved : ∀ r ∈ records, ∃ item ∈ items ++ created, importKey? item = some r.importKey ∧
    keyIn summary.idMapping r.draftId = idOf item
  blockers : ∀ item ∈ created, ∃ r ∈ records, importKey? item = some r.importKey ∧
    item.get? "blocked_by" =
      some (textsValue (dedupeTexts (r.blockedBy.map (keyIn summary.idMapping)))).1

theorem importsEach_of_went {sidecar : Bytes}
    (h : Went e sidecar c s summary s' allocated) :
    ImportsEach e (sidecarRecords e sidecar) (s.liveItems e)
      (List.zipWith (recordItem c summary.idMapping)
        (createdOf (s.liveItems e) (sidecarRecords e sidecar)) allocated) summary := by
  have ha := h.accepted
  have hsummary := h.summary
  obtain ⟨hnodup, hcreated, hmissing⟩ := createdRecords_spec
    ((liveKeys (s.liveItems e)).map Prod.fst) (sidecarRecords e sidecar)
  have hmapping : summary.idMapping = idMapping (keyToId (s.liveItems e)
      (createdOf (s.liveItems e) (sidecarRecords e sidecar)) allocated)
        (sidecarRecords e sidecar) := by rw [hsummary]
  have hitems : s.liveItems e ++ List.zipWith (recordItem c summary.idMapping)
      (createdOf (s.liveItems e) (sidecarRecords e sidecar)) allocated =
        updatedItems c (s.liveItems e) (sidecarRecords e sidecar) allocated := by
    rw [hmapping]
    rfl
  have hkeys : (List.zipWith (recordItem c summary.idMapping)
      (createdOf (s.liveItems e) (sidecarRecords e sidecar)) allocated).map importKey? =
        ((createdOf (s.liveItems e) (sidecarRecords e sidecar)).map
          SidecarRecord.importKey).map some := by
    rw [List.map_map]
    exact map_importKey?_zipWith c _ ha.importKey_ne ha.length
  refine ⟨?_, ?_, ?_, ?_, ?_, ?_, ?_⟩
  · rw [hsummary, List.length_zipWith, ha.length, Nat.min_self]
  · intro r hr other hother
    rw [(ha.wellRead r hr).key, (ha.wellRead other hother).key]
    exact importContentKey_inj (h.kinds r hr) (h.kinds other hother)
  · rw [hkeys]
    exact hnodup.map (Option.some_injective _)
  · intro key
    rw [hkeys, List.mem_map_of_injective (Option.some_injective _)]
    constructor
    · intro hmem
      obtain ⟨r, hr, rfl⟩ := List.mem_map.mp hmem
      exact ⟨List.mem_map.mpr ⟨r, (hcreated r hr).1, rfl⟩, (hcreated r hr).2⟩
    · rintro ⟨hmem, hnew⟩
      obtain ⟨r, hr, rfl⟩ := List.mem_map.mp hmem
      exact hmissing r hr hnew
  · rw [hitems]
    exact ha.nodup_updatedItems c
  · intro r hr
    obtain ⟨id, hid, hmem⟩ := ha.exists_id c hr
    obtain ⟨item, hitem, hkey, rfl⟩ := mem_existingKeyById.mp hmem
    refine ⟨item, hitems ▸ hitem, hkey, ?_⟩
    have hdraft : Dictionary.get? (draftKeyById (sidecarRecords e sidecar)) r.draftId =
        some r.importKey := by
      rw [Dictionary.get?_eq_some_iff]
      · exact List.mem_map.mpr ⟨r, hr, rfl⟩
      · unfold draftKeyById
        rw [List.map_map]
        exact nodup_of_readImportRecords h.read
    rw [hmapping, keyIn_idMapping, hdraft, Option.map_some, hid]
    rfl
  · refine forall_mem_zipWith_of_mem fun r hr id => ?_
    refine ⟨r, (hcreated r hr).1, importKey?_recordItem c _ r id (ha.importKey_ne r hr), ?_⟩
    exact blockedBy_recordItem c _ r id

/-! ### The repetition -/

/-- **Importing the file again** changes nothing: no item is imported, each draft stands for the
item that it stood for, and the items are those that were there. -/
def Repeats (e : ImportEnv) (sidecar : Bytes) (summary : ImportSummary) (s' : TaskState) : Prop :=
  ∀ call : ImportCall, ∃ again s'', cmdImport e sidecar call s' = .ok (again, s'') ∧
    again.imported = 0 ∧ again.idMapping = summary.idMapping ∧
    ∃ items store store', loadItems e.store true s'.store = .ok (items, store) ∧
      loadItems e.store true s''.store = .ok (items, store')

/-- **The condition.** -/
structure Repeatable (items : List Mapping) (records : List SidecarRecord) : Prop where
  /-- No string of an item has a line end above ASCII. -/
  oneLine : ∀ item ∈ items, OneLine item.document.1
  /-- The file has no errors among the items that are kept. -/
  checked : importErrors records items [] = .ok []
  distinct : DistinctTargets items records

section Went

variable {e : ImportEnv} {sidecar : Bytes} {c : ImportCall} {s s' : TaskState}
  {summary : ImportSummary} {allocated : List String}

theorem Went.of_again (h : Went e sidecar c s summary s' allocated) {call : ImportCall}
    {again : ImportSummary} {s'' : TaskState}
    (hagain : cmdImport e sidecar call s' = .ok (again, s'')) :
    (∀ item ∈ updatedItems c (s.liveItems e) (sidecarRecords e sidecar) allocated,
        OneLine item.document.1) ∧
      importErrors (sidecarRecords e sidecar)
        (updatedItems c (s.liveItems e) (sidecarRecords e sidecar) allocated) [] = .ok [] := by
  obtain ⟨⟨records, readErrors⟩, hread, hagain⟩ := exists_of_bind_eq_ok hagain
  obtain ⟨⟨seen, loaded⟩, hload, hagain⟩ := exists_of_bind_eq_ok hagain
  obtain ⟨errors, herrors, hagain⟩ := exists_of_bind_eq_ok hagain
  obtain ⟨rfl, rfl⟩ := Prod.mk.inj (Except.ok.inj (h.read.symm.trans hread))
  obtain ⟨rfl, -, hone⟩ := h.saved.of_loadItems (raised_eq_ok hload)
  refine ⟨hone, ?_⟩
  cases errors with
  | nil => exact herrors
  | cons first more => cases hagain

theorem ok_bind {ε α β : Type} (a : α) (f : α → Except ε β) : (Except.ok a >>= f) = f a := rfl

theorem importUpdate_of_known (e : ImportEnv)
    (hcheck : checkLive (keyIn (liveBlockerKeys records items)) (existingByKey items) records =
      .ok ()) (hknown : ∀ r ∈ records, r.importKey ∈ (liveKeys items).map Prod.fst)
    (call : ImportCall) (seq : Family → ℕ) :
    importUpdate e call records seq items = .ok
      { summary := ⟨0, records.length, idMapping (liveKeys items) records⟩
        reservedFamilies := []
        items := items } := by
  have hcreated : createdOf items records = [] := createdRecords_eq_nil hknown
  unfold importUpdate
  simp only [hcheck, hcreated, List.map_nil, previewImportIds_nil, ok_bind, keyToId,
    List.zip_nil_left, List.append_nil, List.zipWith_nil_left, List.length_nil, Nat.sub_zero]
  rfl

/-- **A repetition goes through** where the items are read and have no errors. -/
theorem Went.repeats (h : Went e sidecar c s summary s' allocated)
    (hone : ∀ item ∈ updatedItems c (s.liveItems e) (sidecarRecords e sidecar) allocated,
      OneLine item.document.1)
    (herrors : importErrors (sidecarRecords e sidecar)
      (updatedItems c (s.liveItems e) (sidecarRecords e sidecar) allocated) [] = .ok []) :
    Repeats e sidecar summary s' := by
  intro call
  have ha := h.accepted
  have hkeys := ha.liveKeys_updatedItems c
  have htidy := ha.tidy_updatedItems c
  have hfilled := h.saved.filled
  have hload := h.saved.loadItems_eq hone true
  have hopen := h.saved.openStore_eq hone rfl
  obtain ⟨store, hsave⟩ := h.saved.save
  have hsaved := saved_of_saveItemsAtomic hfilled hsave
  obtain ⟨-, -, -, -, -, hcollisions⟩ := importErrors_eq_nil_iff.mp herrors
  have hcheck := checkLive_eq_ok_iff.mpr hcollisions
  rw [← liveBlockerKeys_eq htidy] at hcheck
  have hupdate := importUpdate_of_known e hcheck (fun r hr => hkeys ▸ ha.mem_keyToId hr) call s'.seq
  let again : ImportSummary := ⟨0, (sidecarRecords e sidecar).length, idMapping
    (liveKeys (updatedItems c (s.liveItems e) (sidecarRecords e sidecar) allocated))
    (sidecarRecords e sidecar)⟩
  refine ⟨again, ⟨store, s'.seq⟩, ?_, rfl, ?_, _, s'.store, store, hload,
    hsaved.loadItems_eq hone true⟩
  · have hpublish : publishImport e call (sidecarRecords e sidecar) s' = .ok
        (again, ⟨store, s'.seq⟩) := by
      unfold publishImport
      rw [hopen]
      show (importUpdate e call (sidecarRecords e sidecar) s'.seq _ >>= _) = _
      rw [hupdate]
      show (raised (saveItemsAtomic e.store s'.store _) >>= _) = _
      rw [hsave]
      rfl
    unfold cmdImport
    rw [h.read]
    show (raised (loadItems e.store true s'.store) >>= _) = _
    rw [hload]
    show (importErrors (sidecarRecords e sidecar) _ [] >>= _) = _
    rw [herrors]
    exact hpublish
  · rw [h.summary]
    exact congrArg (idMapping · _) hkeys

/-- The items are read again where those that were there are: new items were read when the
counters were advanced. -/
theorem Went.oneLine (h : Went e sidecar c s summary s' allocated)
    (hone : ∀ item ∈ s.liveItems e, OneLine item.document.1) :
    ∀ item ∈ updatedItems c (s.liveItems e) (sidecarRecords e sidecar) allocated,
      OneLine item.document.1 := by
  by_cases hcreated : createdOf (s.liveItems e) (sidecarRecords e sidecar) = []
  · unfold updatedItems
    rw [hcreated, List.zipWith_nil_left, List.append_nil]
    exact hone
  · exact h.advanced hcreated

end Went

/-- **Whether an import is idempotent.**  An import that goes through leaves one item for each
new content key, its drafts replaced by ids, and importing the file again changes nothing
exactly when the items that were there can be read again, the file has no errors among them,
and no new record has two references that resolve to one item. -/
theorem import_idempotent_iff (e : ImportEnv) (sidecar : Bytes) (c : ImportCall) (htidy : s.Tidy e)
    (h : cmdImport e sidecar c s = .ok (summary, s')) :
    ((∃ created, Saved e.store s'.store (s.liveItems e ++ created) ∧
        ImportsEach e (sidecarRecords e sidecar) (s.liveItems e) created summary) ∧
      Repeats e sidecar summary s') ↔
        Repeatable (s.liveItems e) (sidecarRecords e sidecar) := by
  obtain ⟨allocated, hwent⟩ := went_of_cmdImport htidy h
  have hiff := hwent.accepted.importErrors_updatedItems_iff c
  constructor
  · rintro ⟨-, hrepeats⟩
    obtain ⟨again, s'', hagain, -⟩ := hrepeats c
    obtain ⟨hone, herrors⟩ := hwent.of_again hagain
    obtain ⟨hchecked, hdistinct⟩ := hiff.mp herrors
    exact ⟨fun item hitem => hone item (List.mem_append_left _ hitem), hchecked, hdistinct⟩
  · intro hcondition
    refine ⟨⟨_, ?_, importsEach_of_went hwent⟩, ?_⟩
    · have hmapping := congrArg ImportSummary.idMapping hwent.summary
      rw [hmapping]
      exact hwent.saved
    · exact hwent.repeats (hwent.oneLine hcondition.oneLine)
        (hiff.mpr ⟨hcondition.checked, hcondition.distinct⟩)

/-! ### Two drafts of one title -/

/-- A call of an agent. -/
def agentCall : ImportCall := ⟨"/work/drafts.jsonl", ⟨"2026-01-01T00:00:00Z", "agent"⟩⟩

/-- An environment without a dashboard, where ASCII alone has letters. -/
def plainImport : ImportEnv where
  store := plainEnv
  recordSortTime := fun _ => 0
  digits := asciiDigits
  lower := fun text => text.map Char.toLower

/-- No store and no counters yet. -/
def noTasks : TaskState := ⟨noStore, fun _ => 0⟩

/-- The object of a task under a draft id. -/
def draftObject (draftId title : String) (blockedBy : List String) : Mapping :=
  Mapping.empty.update [("id", textValue draftId), ("schema_version", ⟨.int 1, wellFormed_one⟩),
    ("kind", textValue "task"), ("title", textValue title), ("blocked_by", textsValue blockedBy)]

/-- A file of objects. -/
def sidecarOf (objects : List Mapping) : Bytes :=
  encode (objects.flatMap fun o => dumps o.document.1 ++ ['\n'])

/-- Two drafts of one title, and a third that waits for these. -/
def draftsOfOneTitle (blockedBy : List String) : List Mapping :=
  [draftObject "draft-a" "Fix it" [], draftObject "draft-b" "fix it" [],
    draftObject "draft-c" "Ship it" blockedBy]

theorem liveItems_noTasks : noTasks.liveItems plainImport = [] := rfl

theorem tidy_noTasks : noTasks.Tidy plainImport where
  items := ⟨nofun,
    nofun, List.nodup_nil⟩
  monotone := List.Subset.refl _

/-- The update of a first import. -/
def firstUpdate (records : List SidecarRecord) (allocated : List String) : ImportUpdate where
  summary :=
    { imported := (createdOf [] records).length
      skippedDuplicates := records.length - (createdOf [] records).length
      idMapping := idMapping (keyToId [] (createdOf [] records) allocated) records }
  reservedFamilies := (createdOf [] records).map fun r => familyOfKind r.kind
  items := updatedItems agentCall [] records allocated

theorem exists_import {sidecar : Bytes}
    (hread : readImportRecords plainImport sidecar = .ok (records, []))
    (herrors : importErrors records [] [] = .ok [])
    (hlive : checkLive (keyIn (liveBlockerKeys records [])) (existingByKey []) records = .ok ())
    (hallocated : previewImportIds plainImport noTasks.seq []
      (firstUpdate records allocated).reservedFamilies = some allocated)
    (hstage : (stageItems plainEnv
      ((firstUpdate records allocated).items.map Mapping.document)).toOption.isSome = true)
    (hone : ∀ item ∈ (firstUpdate records allocated).items, OneLine item.document.1)
    (htaken : (takenNumbers asciiDigits noTasks.seq (firstUpdate records allocated).items
      (firstUpdate records allocated).reservedFamilies).isSome = true) :
    ∃ s', cmdImport plainImport sidecar agentCall noTasks =
      .ok ((firstUpdate records allocated).summary, s') := by
  have hupdate : importUpdate plainImport agentCall records noTasks.seq [] =
      .ok (firstUpdate records allocated) := by
    unfold importUpdate
    rw [hlive]
    simp only [bind, Except.bind]
    change previewImportIds plainImport noTasks.seq []
      ((createdOf [] records).map fun r => familyOfKind r.kind) = some allocated at hallocated
    rw [hallocated]
    rfl
  have hfilled : ∀ item ∈ (firstUpdate records allocated).items, Filled item :=
    filled_updatedItems nofun
  generalize firstUpdate records allocated = update at *
  obtain ⟨written, store, hsave⟩ := exists_saved hstage noStore
  have hsaved := saved_of_saveItemsAtomic hfilled hsave
  obtain ⟨taken, htaken⟩ := Option.isSome_iff_exists.mp htaken
  obtain ⟨seq, hseq⟩ : ∃ seq, advanceSeq plainImport update.reservedFamilies
      ⟨store, noTasks.seq⟩ = .ok seq := by
    unfold advanceSeq
    split
    · exact ⟨_, rfl⟩
    · have hload : loadItems plainImport.store false store = .ok (update.items, store) :=
        hsaved.loadItems_eq hone false
      refine ⟨fun f => if f ∈ update.reservedFamilies then taken f else noTasks.seq f, ?_⟩
      rw [hload]
      simp only [raised, bind, Except.bind, Except.mapError]
      change takenNumbers plainImport.digits _ _ _ = some taken at htaken
      rw [htaken]
      rfl
  refine ⟨⟨store, seq⟩, ?_⟩
  unfold cmdImport
  rw [hread]
  show (importErrors records [] [] >>= _) = _
  rw [herrors]
  show (importUpdate plainImport agentCall records noTasks.seq [] >>= _) = _
  rw [hupdate]
  show (raised (saveItemsAtomic plainEnv noStore _) >>= _) = _
  rw [hsave]
  show (advanceSeq plainImport update.reservedFamilies ⟨store, noTasks.seq⟩ >>= _) = _
  rw [hseq]
  rfl

/-- The records of the three drafts. -/
def recordsOfOneTitle (blockedBy : List String) : List SidecarRecord :=
  [⟨"draft-a", "task", "Fix it", "deferred", [], [], [], 1, "import:task\x1ffix it"⟩,
    ⟨"draft-b", "task", "fix it", "deferred", [], [], [], 2, "import:task\x1ffix it"⟩,
    ⟨"draft-c", "task", "Ship it", "deferred", blockedBy, [], [], 3, "import:task\x1fship it"⟩]

theorem importErrors_recordsOfOneTitle {blockedBy : List String}
    (h : blockedBy = ["draft-a"] ∨ blockedBy = ["draft-a", "draft-b"]) :
    importErrors (recordsOfOneTitle blockedBy) [] [] = .ok [] := by
  rw [importErrors_eq_nil_iff]
  rcases h with rfl | rfl <;> decide +kernel

theorem exists_importOfOneTitle {blockedBy : List String}
    (h : blockedBy = ["draft-a"] ∨ blockedBy = ["draft-a", "draft-b"]) :
    readImportRecords plainImport (sidecarOf (draftsOfOneTitle blockedBy)) =
        .ok (recordsOfOneTitle blockedBy, []) ∧
      ∃ summary s', cmdImport plainImport (sidecarOf (draftsOfOneTitle blockedBy)) agentCall
        noTasks = .ok (summary, s') := by
  have hread : readImportRecords plainImport (sidecarOf (draftsOfOneTitle blockedBy)) =
      .ok (recordsOfOneTitle blockedBy, []) := by
    unfold sidecarOf
    rw [readImportRecords_objects plainImport (by rcases h with rfl | rfl <;> decide +kernel)]
    unfold draftsOfOneTitle
    simp only [List.map_cons, List.map_nil, readSidecarLines, readSidecarLine_dumps]
    rcases h with rfl | rfl <;> decide +kernel
  have herrors := importErrors_recordsOfOneTitle h
  refine ⟨hread, (firstUpdate (recordsOfOneTitle blockedBy) ["t-001", "t-002"]).summary, ?_⟩
  rcases h with rfl | rfl <;>
    exact exists_import hread herrors (by decide +kernel) (by decide +kernel) (by decide +kernel)
      (by decide +kernel) (by decide +kernel)

/-- A file whose records have different targets is imported twice as once. -/
theorem import_idempotent_different : ∃ summary s',
    cmdImport plainImport (sidecarOf (draftsOfOneTitle ["draft-a"])) agentCall noTasks =
        .ok (summary, s') ∧
      Repeats plainImport (sidecarOf (draftsOfOneTitle ["draft-a"])) summary s' := by
  obtain ⟨hread, summary, s', himport⟩ := exists_importOfOneTitle (.inl rfl)
  refine ⟨summary, s', himport, ?_⟩
  refine ((import_idempotent_iff plainImport _ agentCall tidy_noTasks himport).mpr ?_).2
  rw [sidecarRecords_eq hread, liveItems_noTasks]
  refine ⟨nofun,
    importErrors_recordsOfOneTitle (.inl rfl), ?_⟩
  intro r hr ref href other hother _
  have hone : ∀ r ∈ recordsOfOneTitle ["draft-a"], ∀ ref ∈ r.blockedBy, ref = "draft-a" := by
    decide +kernel
  have hrecord := ((createdRecords_spec _ _).2.1 r hr).1
  exact (hone r hrecord ref href).trans (hone r hrecord other hother).symm

/-- **A record that waits for two drafts of one title.**  The file is imported, and cannot be
imported again. -/
theorem import_not_idempotent : ∃ summary s',
    cmdImport plainImport (sidecarOf (draftsOfOneTitle ["draft-a", "draft-b"])) agentCall noTasks =
        .ok (summary, s') ∧
      ∀ call again s'', cmdImport plainImport
        (sidecarOf (draftsOfOneTitle ["draft-a", "draft-b"])) call s' ≠ .ok (again, s'') := by
  obtain ⟨hread, summary, s', himport⟩ := exists_importOfOneTitle (.inr rfl)
  refine ⟨summary, s', himport, ?_⟩
  intro call again s'' hagain
  obtain ⟨allocated, hwent⟩ := went_of_cmdImport tidy_noTasks himport
  have hdistinct := ((hwent.accepted.importErrors_updatedItems_iff agentCall).mp
    (hwent.of_again hagain).2).2
  rw [sidecarRecords_eq hread, liveItems_noTasks] at hdistinct
  have hsame := hdistinct
    ⟨"draft-c", "task", "Ship it", "deferred", ["draft-a", "draft-b"], [], [], 3,
      "import:task\x1fship it"⟩ (by decide +kernel) "draft-a" (by decide) "draft-b" (by decide)
    (by decide +kernel)
  exact absurd hsame (by decide)

end GoalFlight.Tasks
