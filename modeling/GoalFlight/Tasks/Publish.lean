import GoalFlight.Tasks.Codec

/-!
# Publishing a task store

`save_items_atomic` stages a whole generation, then puts a marker down, renames the changed
files over the live ones and takes the marker away; a rename that fails is rolled back.  A
reader or writer that finds the marker regenerates every file from the `tasks.jsonl` there
is.

A publication is the list of its file operations, so a crash is a prefix of it.  Not here:
the staging directory, snapshots and the copies into the project tree, which no modelled
function reads.

`saved_readable_iff` is the round trip of a publication that ends.
-/

namespace GoalFlight.Tasks

open Json Utf8

variable {items : List Document}

/-! ### The store -/

/-- The files that a publication renames. -/
inductive Target
  | tasks
  | dataJs
  | taskDecomposition
  | tasksDone
  | bugBacklog
  | bugsDone
deriving DecidableEq

variable {t : Target}

/-- A store on disk. -/
structure Store where
  file : Target → Option Bytes
  /-- `.tasks-publish-incomplete.json` exists. -/
  marker : Bool
  /-- The legacy store of the project tree: its `tasks.jsonl`, if there is one, and then its
  snapshots, the newest first. -/
  legacy : List Bytes

variable {s : Store}

/-- The texts of `generated_markdown`. -/
structure Markdown where
  taskDecomposition : List Char
  tasksDone : List Char
  bugBacklog : List Char
  bugsDone : List Char

/-- What a call finds outside the store. -/
structure StoreEnv where
  /-- `_dashboard_export_enabled()`. -/
  exportEnabled : Bool
  /-- The strict checker's answer to a staged `tasks.jsonl` and `tasks-data.js`. -/
  checker : Bytes → Bytes → Option String
  itemsDataJs : List Mapping → Except TaskError (List Char)
  generatedMarkdown : List Mapping → Except TaskError Markdown

variable {w : StoreEnv}

/-- One file operation. -/
inductive FileOp
  /-- A rename over a live file. -/
  | replace (target : Target) (data : Bytes)
  | writeMarker
  | clearMarker
  /-- `_restore_bytes`: a rename, or an unlink. -/
  | restore (target : Target) (data : Option Bytes)

/-- The store with another file. -/
def Store.setFile (s : Store) (target : Target) (data : Option Bytes) : Store :=
  { s with file := fun t => if t = target then data else s.file t }

/-- The store after an operation. -/
def Store.apply (s : Store) : FileOp → Store
  | .replace target data => s.setFile target (some data)
  | .writeMarker => { s with marker := true }
  | .clearMarker => { s with marker := false }
  | .restore target data => s.setFile target data

/-- The store after operations. -/
def Store.applyAll (s : Store) (ops : List FileOp) : Store := ops.foldl Store.apply s

/-! ### A generation -/

/-- The files of a publication, in the order of their renames. -/
def targets (exportEnabled : Bool) : List Target :=
  .tasks :: ((if exportEnabled then [.dataJs] else []) ++
    [.taskDecomposition, .tasksDone, .bugBacklog, .bugsDone])

/-- The files of a generation of items. -/
structure Generation where
  tasks : List Char
  dataJs : List Char
  markdown : Markdown

variable {g : Generation}

/-- The bytes of one of the files. -/
def Generation.bytes (g : Generation) : Target → Bytes
  | .tasks => encode g.tasks
  | .dataJs => encode g.dataJs
  | .taskDecomposition => encode g.markdown.taskDecomposition
  | .tasksDone => encode g.markdown.tasksDone
  | .bugBacklog => encode g.markdown.bugBacklog
  | .bugsDone => encode g.markdown.bugsDone

/-- The text of the mirror, where there is one. -/
def mirrorText (w : StoreEnv) (items : List Mapping) : Except TaskError (List Char) :=
  if w.exportEnabled then w.itemsDataJs items else .ok []

/-- The contents that `_write_staged_generation` stages. -/
def stagedGeneration (w : StoreEnv) (items : List Mapping) : Except TaskError Generation := do
  let tasks ← itemsJsonl items
  let dataJs ← mirrorText w items
  let markdown ← w.generatedMarkdown items
  return ⟨tasks, dataJs, markdown⟩

/-- `_run_checker` of a staged generation. -/
def runChecker (w : StoreEnv) (g : Generation) : Except TaskError Unit :=
  if w.exportEnabled then
    match w.checker (g.bytes .tasks) (g.bytes .dataJs) with
    | none => .ok ()
    | some message => .error (.taskError message)
  else .ok ()

/-- A generation that passed the checker. -/
def checkedGeneration (w : StoreEnv) (items : List Mapping) : Except TaskError Generation := do
  let g ← stagedGeneration w items
  runChecker w g
  return g

/-- The stub of a retired mirror. -/
def mirrorStub : Bytes :=
  encode ("window.GF_META = \x7b\"dashboard_export\":\"disabled\"," ++
    "\"enable_with\":\"GOALFLIGHT_DASHBOARD_EXPORT_ENABLED=1\"\x7d;\n" ++
    "window.GF_ITEMS = [];\n").toList

/-- `_disable_dashboard_mirrors`. -/
def disableDashboardMirrors (w : StoreEnv) (s : Store) : List FileOp :=
  if w.exportEnabled then []
  else
    match s.file .dataJs with
    | none => []
    | some data => if data = mirrorStub then [] else [.replace .dataJs mirrorStub]

/-! ### Saving -/

/-- The files that differ from the generation. -/
def changedTargets (w : StoreEnv) (s : Store) (g : Generation) : List Target :=
  (targets w.exportEnabled).filter fun t => s.file t ≠ some (g.bytes t)

/-- The operations after the marker: all renames, or the renames before the one that fails,
and the rollback. -/
def renameOps (s : Store) (g : Generation) (changed : List Target) : Option ℕ → List FileOp
  | none => changed.map fun t => .replace t (g.bytes t)
  | some failAt => ((changed.map fun t => .replace t (g.bytes t)).take failAt) ++
      changed.map fun t => .restore t (s.file t)

/-- The operations of a publication. -/
def publishOps (w : StoreEnv) (s : Store) (g : Generation) (failAt : Option ℕ) : List FileOp :=
  disableDashboardMirrors w s ++
    if changedTargets w s g = [] then [.clearMarker]
    else .writeMarker :: (renameOps s g (changedTargets w s g) failAt ++ [.clearMarker])

/-- What `save_items_atomic` has before its first file operation: the items with their
defaults, and their generation. -/
def stageItems (w : StoreEnv) (items : List Document) : Except TaskError (List Mapping × Generation) := do
  let written ← validateItemsForWrite items
  let g ← checkedGeneration w written
  return (written, g)

/-- `save_items_atomic` whose operations all succeed: the items as it leaves them, with their
defaults, and the store. -/
def saveItemsAtomic (w : StoreEnv) (s : Store) (items : List Document) :
    Except TaskError (List Mapping × Store) := do
  let (written, g) ← stageItems w items
  return (written, s.applyAll (publishOps w s g none))

/-! ### Recovering -/

/-- The operations of `_recover_interrupted_publish_locked`. -/
def recoverOps (w : StoreEnv) (s : Store) : Except TaskError (List FileOp) :=
  if s.marker then
    match s.file .tasks with
    | none => .error (.taskError (".tasks-publish-incomplete.json: interrupted task publish " ++
        "cannot recover because tasks.jsonl is missing"))
    | some data => do
        let (items, _) ← parseJsonl "tasks.jsonl" (some data)
        let written ← validateItemsForWrite (items.map Mapping.document)
        let g ← checkedGeneration w written
        return disableDashboardMirrors w s ++
          ((targets w.exportEnabled).map fun t => .replace t (g.bytes t)) ++ [.clearMarker]
  else .ok []

/-- `_recover_interrupted_publish_locked`. -/
def recoverInterruptedPublish (w : StoreEnv) (s : Store) : Except TaskError Store :=
  (recoverOps w s).map s.applyAll

/-! ### The legacy store -/

/-- What `_read_legacy_best_known_good` compares: the number of items, and the newest time of
one. -/
def generationKey (recordSortTime : Mapping → ℤ) (items : List Mapping) : ℕ × ℤ :=
  (items.length, ((items.map recordSortTime).max?).getD 0)

/-- The order of the keys. -/
def keyLe (a b : ℕ × ℤ) : Bool := a.1 < b.1 || (a.1 = b.1 && a.2 ≤ b.2)

/-- A candidate that can be read and written. -/
def legacyCandidate (data : Bytes) : Option (List Mapping) :=
  match parseJsonl "tasks.jsonl" (some data) with
  | .error _ => none
  | .ok (items, _) => (validateItemsForWrite (items.map Mapping.document)).toOption

/-- The last of the candidates with the greatest key. -/
def bestCandidate (recordSortTime : Mapping → ℤ) : List (List Mapping) → Option (List Mapping)
  | [] => none
  | items :: rest =>
    match bestCandidate recordSortTime rest with
    | none => some items
    | some best =>
      if keyLe (generationKey recordSortTime items) (generationKey recordSortTime best)
      then some best else some items

/-- `_read_legacy_best_known_good`.  A file that is no text is not skipped: it stops the
scan. -/
def readLegacyBestKnownGood (recordSortTime : Mapping → ℤ) (s : Store) :
    Except TaskError (List Mapping) :=
  if s.legacy.any fun data => (readText data).isNone then .error .unicodeDecodeError
  else
    match bestCandidate recordSortTime (s.legacy.filterMap legacyCandidate) with
    | none => .error (.taskError
        "legacy task-store migration: no valid tasks.jsonl or snapshot")
    | some items => .ok items

/-- `_ensure_store_ready`: a legacy store is published once. -/
def ensureStoreReady (recordSortTime : Mapping → ℤ) (w : StoreEnv) (s : Store) :
    Except TaskError Store :=
  if (s.file .tasks).isSome || s.legacy.isEmpty then .ok s
  else do
    let items ← readLegacyBestKnownGood recordSortTime s
    let (_, s') ← saveItemsAtomic w s (items.map Mapping.document)
    return s'

/-! ### Readers and writers -/

/-- The items of a file, and the store. -/
def readItems (s : Store) (file : Option Bytes) : Except TaskError (List Mapping × Store) :=
  (parseJsonl "tasks.jsonl" file).map fun (items, _) => (items, s)

/-- `load_items`: the items, and the store it leaves. -/
def loadItems (w : StoreEnv) (recoverPublish : Bool) (s : Store) :
    Except TaskError (List Mapping × Store) :=
  if (s.file .tasks).isSome then
    if recoverPublish then do
      let s' ← recoverInterruptedPublish w s
      readItems s' (s'.file .tasks)
    else readItems s (s.file .tasks)
  else readItems s s.legacy.head?

/-- What `mutate_items` does before it looks at the items. -/
def mutateRecover (recordSortTime : Mapping → ℤ) (w : StoreEnv) (s : Store) :
    Except TaskError Store := do
  let s ← ensureStoreReady recordSortTime w s
  recoverInterruptedPublish w s

/-- `_snapshot_last_good`: what it refuses. -/
def snapshotLastGood (w : StoreEnv) (requireValid : Bool) (s : Store) : Except TaskError Unit :=
  let missing : Except TaskError Unit := .error (.taskError
    ("missing docs-private/tasks.jsonl or dashboard/tasks-data.js; refusing mutation without " ++
      "a valid last-known-good pair"))
  let tolerate (result : Except TaskError Unit) : Except TaskError Unit :=
    match result with
    | .error e => if requireValid then .error e else .ok ()
    | .ok _ => .ok ()
  match s.file .tasks, if w.exportEnabled then s.file .dataJs else s.file .tasks with
  | none, none => .ok ()
  | some _, none => if requireValid then missing else .ok ()
  | none, some _ => missing
  | some tasks, some dataJs =>
    if w.exportEnabled then
      match w.checker tasks dataJs with
      | none => .ok ()
      | some message => tolerate (.error (.taskError message))
    else tolerate do
      let (items, _) ← parseJsonl "tasks.jsonl" (some tasks)
      let _ ← validateItemsForWrite (items.map Mapping.document)
      return ()

/-! ### What operations do to the store -/

theorem applyAll_append (s : Store) (ops more : List FileOp) :
    s.applyAll (ops ++ more) = (s.applyAll ops).applyAll more :=
  List.foldl_append

theorem applyAll_cons (s : Store) (op : FileOp) (ops : List FileOp) :
    s.applyAll (op :: ops) = (s.apply op).applyAll ops := rfl

/-- The live file that an operation writes. -/
def FileOp.target? : FileOp → Option Target
  | .replace target _ | .restore target _ => some target
  | .writeMarker | .clearMarker => none

theorem apply_legacy (s : Store) (op : FileOp) : (s.apply op).legacy = s.legacy := by
  cases op <;> rfl

theorem applyAll_legacy (s : Store) (ops : List FileOp) : (s.applyAll ops).legacy = s.legacy := by
  induction ops generalizing s with
  | nil => rfl
  | cons op ops ih => rw [applyAll_cons, ih, apply_legacy]

theorem apply_file_of_ne {op : FileOp} (h : op.target? ≠ some t) :
    (s.apply op).file t = s.file t := by
  cases op with
  | replace target data | restore target data =>
    have hne : t ≠ target := fun heq => h (congrArg some heq.symm)
    exact if_neg hne
  | writeMarker | clearMarker => rfl

theorem applyAll_file_of_ne {ops : List FileOp} (h : ∀ op ∈ ops, op.target? ≠ some t) :
    (s.applyAll ops).file t = s.file t := by
  induction ops generalizing s with
  | nil => rfl
  | cons op ops ih =>
    rw [applyAll_cons, ih fun o ho => h o (List.mem_cons_of_mem _ ho),
      apply_file_of_ne (h op List.mem_cons_self)]

theorem applyAll_replace (g : Generation) {ts : List Target} (ht : t ∈ ts) :
    (s.applyAll (ts.map fun t => .replace t (g.bytes t))).file t = some (g.bytes t) := by
  induction ts generalizing s with
  | nil => cases ht
  | cons first rest ih =>
    rw [List.map_cons, applyAll_cons]
    by_cases hrest : t ∈ rest
    · exact ih hrest
    · obtain rfl : t = first := (List.mem_cons.mp ht).resolve_right hrest
      rw [applyAll_file_of_ne]
      · exact if_pos rfl
      · intro op hop heq
        obtain ⟨target, htarget, rfl⟩ := List.mem_map.mp hop
        exact hrest (Option.some.inj heq ▸ htarget)

theorem target?_disableDashboardMirrors {op : FileOp} (h : op ∈ disableDashboardMirrors w s) :
    op.target? = some .dataJs := by
  unfold disableDashboardMirrors at h
  split at h
  · cases h
  split at h
  · cases h
  split at h
  · cases h
  · rw [List.mem_singleton.mp h]
    rfl

theorem exists_of_bind_eq_ok {ε α β : Type} {x : Except ε α} {f : α → Except ε β} {b : β}
    (h : x >>= f = .ok b) : ∃ a, x = .ok a ∧ f a = .ok b := by
  cases x with
  | error e => cases h
  | ok a => exact ⟨a, rfl, h⟩

theorem stageItems_eq_ok {written : List Mapping} (h : stageItems w items = .ok (written, g)) :
    validateItemsForWrite items = .ok written ∧ checkedGeneration w written = .ok g := by
  obtain ⟨filled, hvalid, h⟩ := exists_of_bind_eq_ok h
  obtain ⟨staged, hgeneration, h⟩ := exists_of_bind_eq_ok h
  obtain ⟨rfl, rfl⟩ := Prod.mk.inj (Except.ok.inj h)
  exact ⟨hvalid, hgeneration⟩

theorem checkedGeneration_eq_ok {items : List Mapping}
    (h : checkedGeneration w items = .ok g) :
    stagedGeneration w items = .ok g ∧ runChecker w g = .ok () := by
  obtain ⟨staged, hstaged, h⟩ := exists_of_bind_eq_ok h
  obtain ⟨⟨⟩, hchecked, h⟩ := exists_of_bind_eq_ok h
  cases h
  exact ⟨hstaged, hchecked⟩

theorem stagedGeneration_eq_ok {items : List Mapping} (h : stagedGeneration w items = .ok g) :
    itemsJsonl items = .ok g.tasks ∧ w.generatedMarkdown items = .ok g.markdown := by
  obtain ⟨tasks, htasks, h⟩ := exists_of_bind_eq_ok h
  obtain ⟨dataJs, -, h⟩ := exists_of_bind_eq_ok h
  obtain ⟨markdown, hmarkdown, h⟩ := exists_of_bind_eq_ok h
  cases h
  exact ⟨htasks, hmarkdown⟩

theorem applyAll_publishOps_of_retired (ht : t ∈ targets w.exportEnabled)
    (hretired : (s.applyAll (disableDashboardMirrors w s)).file t = s.file t) :
    (s.applyAll (publishOps w s g none)).file t = some (g.bytes t) := by
  unfold publishOps
  rw [applyAll_append]
  split
  · rename_i hnone
    have hsame : s.file t = some (g.bytes t) := by
      by_contra hne
      have hmem : t ∈ changedTargets w s g := List.mem_filter.mpr ⟨ht, decide_eq_true hne⟩
      rw [hnone] at hmem
      cases hmem
    show (s.applyAll (disableDashboardMirrors w s)).file t = _
    rw [hretired, hsame]
  · rw [applyAll_cons, applyAll_append]
    show (Store.applyAll _ (renameOps s g (changedTargets w s g) none)).file t = _
    by_cases hchanged : t ∈ changedTargets w s g
    · exact applyAll_replace g hchanged
    · rw [applyAll_file_of_ne]
      · show (s.applyAll (disableDashboardMirrors w s)).file t = _
        rw [hretired]
        by_contra hne
        exact hchanged (List.mem_filter.mpr ⟨ht, decide_eq_true hne⟩)
      · intro op hop heq
        obtain ⟨target, htarget, rfl⟩ := List.mem_map.mp hop
        exact hchanged (Option.some.inj heq ▸ htarget)

theorem applyAll_publishOps (ht : t ∈ targets w.exportEnabled) (hmirror : t ≠ .dataJs) :
    (s.applyAll (publishOps w s g none)).file t = some (g.bytes t) := by
  apply applyAll_publishOps_of_retired ht
  apply applyAll_file_of_ne
  intro op hop heq
  rw [target?_disableDashboardMirrors hop] at heq
  exact hmirror (Option.some.inj heq).symm

theorem applyAll_publishOps_of_export (hexport : w.exportEnabled = true)
    (ht : t ∈ targets w.exportEnabled) :
    (s.applyAll (publishOps w s g none)).file t = some (g.bytes t) := by
  apply applyAll_publishOps_of_retired ht
  unfold disableDashboardMirrors
  rw [if_pos hexport]
  rfl

theorem saveItemsAtomic_eq_ok {s' : Store} {written : List Mapping}
    (h : saveItemsAtomic w s items = .ok (written, s')) :
    ∃ text, validateItemsForWrite items = .ok written ∧ itemsJsonl written = .ok text ∧
      s'.file .tasks = some (encode text) := by
  obtain ⟨⟨filled, g⟩, hstage, hsave⟩ := exists_of_bind_eq_ok h
  obtain ⟨rfl, rfl⟩ := Prod.mk.inj (Except.ok.inj hsave)
  obtain ⟨hvalid, hgeneration⟩ := stageItems_eq_ok hstage
  have htext := (stagedGeneration_eq_ok (checkedGeneration_eq_ok hgeneration).1).1
  exact ⟨g.tasks, hvalid, htext, applyAll_publishOps List.mem_cons_self (by decide)⟩

/-- **A saved store read back.**  The published `tasks.jsonl` reads as the items that were
saved, with their defaults, exactly when no string of an item has a line end above ASCII. -/
theorem saved_readable_iff {w : StoreEnv} {s s' : Store} {items : List Document}
    {written : List Mapping} (h : saveItemsAtomic w s items = .ok (written, s')) :
    (∃ linesById, parseJsonl "tasks.jsonl" (s'.file .tasks) = .ok (written, linesById)) ↔
      ∀ item ∈ items, OneLine item.1 := by
  obtain ⟨text, hvalid, htext, hfile⟩ := saveItemsAtomic_eq_ok h
  rw [hfile]
  exact parseJsonl_itemsJsonl_iff "tasks.jsonl" hvalid htext

/-- An environment without a dashboard and with empty views. -/
def plainEnv : StoreEnv where
  exportEnabled := false
  checker := fun _ _ => none
  itemsDataJs := fun _ => .ok []
  generatedMarkdown := fun _ => .ok ⟨[], [], [], []⟩

/-- No store yet. -/
def noStore : Store := ⟨fun _ => none, false, []⟩

/-- A task with a title. -/
def titledTask (title : String) : Document :=
  ((Mapping.empty.set "id" ⟨.str "t-001", wellFormed_str "t-001"⟩).set "title" ⟨.str title, wellFormed_str title⟩).document

theorem exists_saved (h : (stageItems plainEnv items).toOption.isSome = true) (s : Store) :
    ∃ written s', saveItemsAtomic plainEnv s items = .ok (written, s') := by
  cases hstage : stageItems plainEnv items with
  | error e =>
    rw [hstage] at h
    cases h
  | ok staged =>
    refine ⟨staged.1, s.applyAll (publishOps plainEnv s staged.2 none), ?_⟩
    unfold saveItemsAtomic
    rw [hstage]
    rfl

/-- A first task reads back. -/
theorem saved_readable_iff_task : ∃ written s',
    saveItemsAtomic plainEnv noStore [titledTask "Fix it"] = .ok (written, s') ∧
      ∃ linesById, parseJsonl "tasks.jsonl" (s'.file .tasks) = .ok (written, linesById) := by
  obtain ⟨written, s', hsave⟩ := exists_saved
    (show (stageItems plainEnv [titledTask "Fix it"]).toOption.isSome = true by decide +kernel)
    noStore
  exact ⟨written, s', hsave, (saved_readable_iff hsave).mpr (by decide +kernel)⟩

/-- A title with a line separator is saved, and nothing reads it back. -/
theorem saved_unreadable : ∃ written s',
    saveItemsAtomic plainEnv noStore [titledTask "a\u2028b"] = .ok (written, s') ∧
      ¬∃ linesById, parseJsonl "tasks.jsonl" (s'.file .tasks) = .ok (written, linesById) := by
  obtain ⟨written, s', hsave⟩ := exists_saved
    (show (stageItems plainEnv [titledTask "a\u2028b"]).toOption.isSome = true by decide +kernel)
    noStore
  refine ⟨written, s', hsave, ?_⟩
  obtain ⟨text, hvalid, htext, hfile⟩ := saveItemsAtomic_eq_ok hsave
  rw [hfile, parseJsonl_itemsJsonl_iff "tasks.jsonl" hvalid htext]
  decide +kernel

end GoalFlight.Tasks
