import GoalFlight.Tasks.Interrupted
import GoalFlight.Tasks.Records
import GoalFlight.Tasks.Written

/-!
# Which generation a migration keeps

The generations of a legacy store are compared by their number of items and then by the
newest time of an item.  That time is read from fields that no command writes, so it is the
same for all generations of one store, and the last file in the scan wins among those with
as many items: `tasks.jsonl` is the first, and the snapshots follow, the oldest last.

`legacy_latest_iff` has the latest generation migrated exactly when no other generation with
as many items is scanned behind it.
-/

namespace GoalFlight.Tasks

open Json Utf8

variable {item : Mapping} {a b items : List Mapping}

/-! ### Sort times -/

/-- The sort time of an item. -/
def itemSortTime (iso : String → Option ℕ) (item : Mapping) : ℤ :=
  recordSortTime iso item.document.1

variable (iso : String → Option ℕ)

theorem itemSortTime_congr {item' : Mapping}
    (h : ∀ key ∈ sortKeys, item'.get? key = item.get? key) :
    itemSortTime iso item' = itemSortTime iso item := by
  have hget : ∀ (m : Mapping) (key : String), m.document.1.get key = (m.get? key).getD .null :=
    fun _ _ => rfl
  unfold itemSortTime recordSortTime
  congr 2
  apply List.map_congr_left
  intro key hkey
  rw [hget, hget, h key hkey]

theorem itemSortTime_eq_zero (h : ∀ key ∈ sortKeys, item.get? key = none) :
    itemSortTime iso item = 0 := by
  calc itemSortTime iso item = itemSortTime iso Mapping.empty := itemSortTime_congr iso h
    _ = 0 := rfl

/-! ### Histories -/

/-- The mutations of a publication, and the items that it writes. -/
def publishMutations (ms : List (Stamp × Mutation)) (items : List Mapping) :
    Except TaskError (List Mapping) := do
  let updated ← ms.foldlM (fun items m => m.2.apply m.1 items) items
  validateItemsForWrite (updated.map Mapping.document)

/-- A generation follows another. -/
def Advances (items next : List Mapping) : Prop :=
  ∃ ms, publishMutations ms items = .ok next

/-- The newest time of an item. -/
def newestTime (items : List Mapping) : ℤ := ((items.map (itemSortTime iso)).max?).getD 0

theorem newestTime_eq_foldl (items : List Mapping) :
    newestTime iso items = (items.map (itemSortTime iso)).foldl max 0 := by
  unfold newestTime
  cases items with
  | nil => rfl
  | cons item rest =>
    have hnonneg : 0 ≤ itemSortTime iso item := recordSortTime_nonneg iso _
    rw [List.map_cons, List.max?_cons', List.foldl_cons, max_eq_right hnonneg]
    rfl

/-- What a mutation leaves of a generation's key. -/
structure Grown (items items' : List Mapping) : Prop where
  length : items.length ≤ items'.length
  newest : newestTime iso items' = newestTime iso items

theorem Grown.refl (items : List Mapping) : Grown iso items items := ⟨Nat.le_refl _, rfl⟩

variable {iso} in
theorem Grown.trans {c : List Mapping} (h : Grown iso a b) (h' : Grown iso b c) :
    Grown iso a c := ⟨h.length.trans h'.length, h'.newest.trans h.newest⟩

theorem Grown.of_times {items' : List Mapping}
    (h : items'.map (itemSortTime iso) = items.map (itemSortTime iso)) :
    Grown iso items items' := by
  refine ⟨?_, ?_⟩
  · have hlength := congrArg List.length h
    rw [List.length_map, List.length_map] at hlength
    exact hlength.ge
  · unfold newestTime
    rw [h]

theorem Grown.append (items : List Mapping) (h : FieldsIn itemKeys item) :
    Grown iso items (items ++ [item]) := by
  refine ⟨by rw [List.length_append]; omega, ?_⟩
  have htime : itemSortTime iso item = 0 :=
    itemSortTime_eq_zero iso fun key hkey => h key ((show ∀ k ∈ sortKeys, k ∉ itemKeys by decide) key hkey)
  have hnonneg : 0 ≤ newestTime iso items := by
    unfold newestTime
    cases hmax : (items.map (itemSortTime iso)).max? with
    | none => exact Int.le_refl 0
    | some time =>
      obtain ⟨other, -, rfl⟩ := List.mem_map.mp (List.max?_mem hmax)
      exact recordSortTime_nonneg iso _
  rw [newestTime_eq_foldl, List.map_append, List.foldl_append, ← newestTime_eq_foldl,
    List.map_singleton, htime]
  exact max_eq_left hnonneg

/-- **No mutation moves a sort time.** -/
theorem Grown.of_apply {st : Stamp} {m : Mutation} {items' : List Mapping}
    (h : m.apply st items = .ok items') : Grown iso items items' := by
  have happend : ∀ {x : Except TaskError Mapping},
      (∀ item, x = .ok item → FieldsIn itemKeys item) →
      x.map (items ++ [·]) = .ok items' → Grown iso items items' := by
    intro x hx hmap
    cases x with
    | error e => cases hmap
    | ok item =>
      cases hmap
      exact .append iso items (hx item rfl)
  cases m with
  | new spec values captureKey =>
    cases h
    exact .append iso items (fieldsIn_newItem spec st values captureKey)
  | harvest spec candidate => exact happend (fun _ => fieldsIn_harvestItem) h
  | importItem spec importKey source draftId =>
    cases h
    exact .append iso items (fieldsIn_importItem spec st importKey source draftId)
  | bug spec report => exact happend (fun _ => fieldsIn_bugItem) h
  | change itemId c =>
    refine .of_times iso (map_updateItem ?_ h)
    intro item item' hitem
    refine itemSortTime_congr iso fun key hkey => get?_change hitem ?_
    exact (show ∀ k ∈ sortKeys, k ∉ changedKeys by decide) key hkey

theorem Grown.of_validate {written : List Mapping}
    (h : validateItemsForWrite (items.map Mapping.document) = .ok written) :
    Grown iso items written := by
  refine .of_times iso (map_validateItems ?_ h)
  intro item
  refine itemSortTime_congr iso fun key hkey => get?_fillItemForWrite ?_
  exact (show ∀ k ∈ sortKeys, k ∉ filledKeys by decide) key hkey

theorem Grown.of_advances {next : List Mapping} (h : Advances items next) :
    Grown iso items next := by
  obtain ⟨ms, h⟩ := h
  obtain ⟨updated, hfold, hvalid⟩ := exists_of_bind_eq_ok h
  refine Grown.trans ?_ (.of_validate iso hvalid)
  clear hvalid h
  induction ms generalizing items with
  | nil =>
    cases hfold
    exact .refl iso _
  | cons m rest ih =>
    rw [List.foldlM_cons] at hfold
    obtain ⟨first, hfirst, hfold⟩ := exists_of_bind_eq_ok hfold
    exact (Grown.of_apply iso hfirst).trans (ih hfold)

/-! ### The migrated generation -/

/-- The latest generation of a history that is among the candidates. -/
def latestPresent (history candidates : List (List Mapping)) : Option (List Mapping) :=
  history.reverse.find? fun g => decide (g ∈ candidates)

/-- Behind the generation no other with as many items is scanned. -/
def ScannedLast (latest : List Mapping) (candidates : List (List Mapping)) : Prop :=
  ∃ before after, candidates = before ++ latest :: after ∧
    ∀ g ∈ after, g.length = latest.length → g = latest

/-- The order of the candidates. -/
def generationLe (a b : List Mapping) : Bool :=
  keyLe (generationKey (itemSortTime iso) a) (generationKey (itemSortTime iso) b)

theorem bestCandidate_eq_latest (candidates : List (List Mapping)) :
    bestCandidate (itemSortTime iso) candidates = Latest.latest (generationLe iso) candidates := by
  induction candidates with
  | nil => rfl
  | cons g rest ih =>
    rw [bestCandidate, Latest.latest, ih]
    cases Latest.latest (generationLe iso) rest <;> rfl

theorem keyLe_iff {a b : ℕ × ℤ} : keyLe a b = true ↔ a.1 < b.1 ∨ a.1 = b.1 ∧ a.2 ≤ b.2 := by
  unfold keyLe
  rw [Bool.or_eq_true, Bool.and_eq_true, decide_eq_true_eq, decide_eq_true_eq, decide_eq_true_eq]

theorem generationLe_total (a b : List Mapping) :
    generationLe iso a b = true ∨ generationLe iso b a = true := by
  unfold generationLe
  rw [keyLe_iff, keyLe_iff]
  omega

theorem generationLe_trans {c : List Mapping} (h : generationLe iso a b = true)
    (h' : generationLe iso b c = true) : generationLe iso a c = true := by
  unfold generationLe at *
  rw [keyLe_iff] at *
  omega

theorem generationLe_iff (h : newestTime iso a = newestTime iso b) :
    generationLe iso a b = true ↔ a.length ≤ b.length := by
  have ha : (generationKey (itemSortTime iso) a).2 = newestTime iso a := rfl
  have hb : (generationKey (itemSortTime iso) b).2 = newestTime iso b := rfl
  unfold generationLe
  rw [keyLe_iff, ha, hb, h]
  show a.length < b.length ∨ a.length = b.length ∧ _ ↔ _
  omega

variable {iso} {history : List (List Mapping)} {s : Store} {latest : List Mapping}

variable (iso) in
theorem grown_latest (hhistory : history.IsChain Advances) {candidates : List (List Mapping)}
    (hin : ∀ g ∈ candidates, g ∈ history) (hlatest : latestPresent history candidates = some latest) :
    latest ∈ candidates ∧ ∀ g ∈ candidates, Grown iso g latest := by
  obtain ⟨hmem, before, after, hsplit, hnot⟩ := List.find?_eq_some_iff_append.mp hlatest
  refine ⟨of_decide_eq_true hmem, ?_⟩
  intro g hg
  have hpairwise : history.Pairwise (Grown iso) := by
    have hchain : history.IsChain (Grown iso) := hhistory.imp fun _ _ => .of_advances iso
    have : Trans (Grown iso) (Grown iso) (Grown iso) := ⟨Grown.trans⟩
    exact hchain.pairwise
  have hhistory : history = after.reverse ++ latest :: before.reverse := by
    rw [← List.reverse_reverse history, hsplit]
    simp
  rw [hhistory] at hpairwise
  have hgin := hin g hg
  rw [hhistory] at hgin
  rcases List.mem_append.mp hgin with holder | hrest
  · exact (List.pairwise_append.mp hpairwise).2.2 g holder latest List.mem_cons_self
  · rcases List.mem_cons.mp hrest with rfl | hnewer
    · exact .refl iso _
    · have habsent := hnot g (List.mem_reverse.mp hnewer)
      rw [decide_eq_true hg] at habsent
      cases habsent

/-- **When a migration keeps the latest generation**: when every file is a text, and no other
generation with as many items is scanned behind it. -/
theorem legacy_latest_iff (hhistory : history.IsChain Advances)
    (hfiles : ∀ data ∈ s.legacy, ∀ g, legacyCandidate data = some g → g ∈ history)
    (hlatest : latestPresent history (s.legacy.filterMap legacyCandidate) = some latest) :
    readLegacyBestKnownGood (itemSortTime iso) s = .ok latest ↔
      (∀ data ∈ s.legacy, (readText data).isSome = true) ∧
        ScannedLast latest (s.legacy.filterMap legacyCandidate) := by
  have hin : ∀ g ∈ s.legacy.filterMap legacyCandidate, g ∈ history := by
    intro g hg
    obtain ⟨data, hdata, hread⟩ := List.mem_filterMap.mp hg
    exact hfiles data hdata g hread
  obtain ⟨hpresent, hgrown⟩ := grown_latest iso hhistory hin hlatest
  rw [readLegacyBestKnownGood_eq_ok_iff, bestCandidate_eq_latest]
  refine and_congr_right fun _ => ?_
  constructor
  · intro hbest
    obtain ⟨before, after, hsplit, hlast⟩ := Latest.isLatest_of_latest (generationLe_total iso)
      (generationLe_trans iso) hbest
    refine ⟨before, after, hsplit, ?_⟩
    intro g hg hlength
    have hgrow := hgrown g (by rw [hsplit]; exact List.mem_append_right _ (List.mem_cons_of_mem _ hg))
    have hle := (generationLe_iff iso hgrow.newest).mpr hlength.ge
    rw [hlast.after g hg] at hle
    cases hle
  · rintro ⟨before, after, hsplit, hlast⟩
    obtain ⟨best, hbest⟩ : ∃ best, Latest.latest (generationLe iso)
        (s.legacy.filterMap legacyCandidate) = some best := by
      cases hnone : Latest.latest (generationLe iso) (s.legacy.filterMap legacyCandidate) with
      | some best => exact ⟨best, rfl⟩
      | none =>
        rw [Latest.latest_eq_none_iff.mp hnone] at hpresent
        cases hpresent
    obtain ⟨before', after', hsplit', hmax⟩ := Latest.isLatest_of_latest (generationLe_total iso)
      (generationLe_trans iso) hbest
    have hgrow := hgrown best (Latest.mem_of_latest (generationLe_total iso)
      (generationLe_trans iso) hbest)
    rw [hbest]
    congr 1
    rcases List.append_eq_append_iff.mp (hsplit.symm.trans hsplit') with
      ⟨more, rfl, hmore⟩ | ⟨more, rfl, hmore⟩
    · -- The best stands at the latest or behind it.
      cases more with
      | nil => exact (List.cons.inj hmore).1.symm
      | cons g more =>
        obtain ⟨rfl, rfl⟩ := List.cons.inj hmore
        have hle := hmax.before latest (List.mem_append_right _ List.mem_cons_self)
        exact hlast best (List.mem_append_right _ List.mem_cons_self)
          (Nat.le_antisymm hgrow.length ((generationLe_iff iso hgrow.newest.symm.symm).mp hle))
    · -- The latest stands at the best or behind it.
      cases more with
      | nil => exact (List.cons.inj hmore).1
      | cons g more =>
        obtain ⟨rfl, rfl⟩ := List.cons.inj hmore
        have hfalse := hmax.after latest (List.mem_append_right _ List.mem_cons_self)
        rw [(generationLe_iff iso hgrow.newest.symm).mpr hgrow.length] at hfalse
        cases hfalse

/-! ### A finished task -/

/-- The stamp of the example. -/
def exampleStamp : Stamp := ⟨"2026-01-01T00:00:00Z", "pm"⟩

/-- The fields of the example's task. -/
def exampleFields (done : Bool) (audit : List Value) : List (String × Value) :=
  [("schema_version", .int 1), ("id", .str "t-001"), ("kind", .str "task"),
    ("title", .str "Port the parser"), ("blocked_by", .arr []), ("links", .arr []),
    ("done", .bool done), ("tags", .arr []), ("created_at", .str "2026-01-01T00:00:00Z"),
    ("created_by", .str "pm"),
    ("audit", .arr (.obj [("at", .str "2026-01-01T00:00:00Z"), ("actor", .str "pm"),
      ("action", .str "new")] :: audit))]

/-- A store with one new task. -/
def openedItems : List Mapping := [⟨exampleFields false [], by decide +kernel⟩]

/-- The task is done. -/
def finishedItems : List Mapping :=
  [⟨exampleFields true [.obj [("at", .str "2026-01-01T00:00:00Z"), ("actor", .str "pm"),
      ("action", .str "done"), ("resolution", .str "done")]] ++
    [("done_at", .str "2026-01-01T00:00:00Z"), ("done_by", .str "pm"),
      ("closed_at", .str "2026-01-01T00:00:00Z"), ("closed_by", .str "pm"),
      ("resolution", .str "done")], by decide +kernel⟩]

theorem advances_openedItems : Advances [] openedItems :=
  ⟨[(exampleStamp, .new ⟨"t-001", "task", "Port the parser", [], [], [], none⟩
    (fun _ => textValue "") none)], by decide +kernel⟩

theorem advances_finishedItems : Advances openedItems finishedItems :=
  ⟨[(exampleStamp, .change "t-001" (.done false "" "done"))], by decide +kernel⟩

/-- The file of a generation. -/
def generationFile (items : List Mapping) : Bytes := encode ((itemsJsonl items).toOption.getD [])

theorem legacyCandidate_generationFile
    (hvalid : validateItemsForWrite (items.map Mapping.document) = .ok items)
    (htext : (itemsJsonl items).isOk = true) (hone : ∀ item ∈ items, OneLine item.document.1) :
    legacyCandidate (generationFile items) = some items := by
  unfold generationFile
  cases hjson : itemsJsonl items with
  | error e =>
    rw [hjson] at htext
    cases htext
  | ok text =>
    have hlines := (oneLine_written_iff hvalid).mp hone
    obtain ⟨linesById, hparse⟩ :=
      (parseJsonl_itemsJsonl_iff "tasks.jsonl" hvalid hjson).mpr hlines
    show legacyCandidate (encode text) = some items
    unfold legacyCandidate
    rw [hparse]
    show (validateItemsForWrite _).toOption = _
    rw [hvalid]
    rfl

theorem legacyCandidate_openedItems :
    legacyCandidate (generationFile openedItems) = some openedItems :=
  legacyCandidate_generationFile (by decide +kernel) (by decide +kernel) (by decide +kernel)

theorem legacyCandidate_finishedItems :
    legacyCandidate (generationFile finishedItems) = some finishedItems :=
  legacyCandidate_generationFile (by decide +kernel) (by decide +kernel) (by decide +kernel)

/-- A legacy store with the files of these generations. -/
def legacyStore (generations : List (List Mapping)) : Store :=
  ⟨fun _ => none, false, generations.map generationFile⟩

/-- The history of the example. -/
def exampleHistory : List (List Mapping) := [[], openedItems, finishedItems]

theorem isChain_exampleHistory : exampleHistory.IsChain Advances :=
  .cons_cons advances_openedItems (.cons_cons advances_finishedItems (.singleton _))

theorem legacyCandidates_example (generations : List (List Mapping))
    (h : ∀ g ∈ generations, g = openedItems ∨ g = finishedItems) :
    (legacyStore generations).legacy.filterMap legacyCandidate = generations := by
  have hread : ∀ g ∈ generations, legacyCandidate (generationFile g) = some g := by
    intro g hg
    rcases h g hg with rfl | rfl
    · exact legacyCandidate_openedItems
    · exact legacyCandidate_finishedItems
  unfold legacyStore
  rw [List.filterMap_map]
  induction generations with
  | nil => rfl
  | cons g rest ih =>
    obtain ⟨hg, hrest⟩ := List.forall_mem_cons.mp hread
    rw [List.filterMap_cons, Function.comp_apply, hg, ih (List.forall_mem_cons.mp h).2 hrest]

theorem readText_generationFile (items : List Mapping) :
    (readText (generationFile items)).isSome = true := by
  unfold readText generationFile
  rw [decode_encode]
  rfl

/-- A store whose `tasks.jsonl` is the older generation keeps the snapshot behind it. -/
theorem legacy_latest_finished :
    readLegacyBestKnownGood (itemSortTime fun _ => none)
      (legacyStore [openedItems, finishedItems]) = .ok finishedItems := by
  have hread := legacyCandidates_example [openedItems, finishedItems] (by decide +kernel)
  refine (legacy_latest_iff isChain_exampleHistory ?_ ?_).mpr ⟨?_, ?_⟩
  · intro data hdata g hg
    have hmem := List.mem_filterMap.mpr ⟨data, hdata, hg⟩
    rw [hread] at hmem
    exact List.mem_cons_of_mem _ hmem
  · rw [hread]
    decide +kernel
  · intro data hdata
    obtain ⟨g, -, rfl⟩ := List.mem_map.mp hdata
    exact readText_generationFile g
  · rw [hread]
    exact ⟨[openedItems], [], rfl, fun g hg => absurd hg List.not_mem_nil⟩

/-- **A finished task is open again**: the older snapshot with as many items is migrated, and not
the `tasks.jsonl` in which the task is done. -/
theorem legacy_latest_reopened :
    exampleHistory.IsChain Advances ∧
      (legacyStore [finishedItems, openedItems]).legacy.filterMap legacyCandidate =
        [finishedItems, openedItems] ∧
      latestPresent exampleHistory [finishedItems, openedItems] = some finishedItems ∧
      readLegacyBestKnownGood (itemSortTime fun _ => none)
        (legacyStore [finishedItems, openedItems]) = .ok openedItems ∧
      openedItems ≠ finishedItems := by
  have hread := legacyCandidates_example [finishedItems, openedItems] (by decide +kernel)
  refine ⟨isChain_exampleHistory, hread, by decide +kernel, ?_, by decide +kernel⟩
  rw [readLegacyBestKnownGood_eq_ok_iff, hread]
  refine ⟨?_, by decide +kernel⟩
  intro data hdata
  obtain ⟨g, -, rfl⟩ := List.mem_map.mp hdata
  exact readText_generationFile g

end GoalFlight.Tasks
