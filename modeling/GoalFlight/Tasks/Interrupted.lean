import GoalFlight.Tasks.Recovery

/-!
# Crash-atomic publications

The stores that are left when a publication, or a recovery after it, stops at any of its file
operations, and what the next reader and the next writer see of them.
-/

namespace GoalFlight.Tasks

open Json Utf8

variable (recordSortTime : Mapping → ℤ)
variable {data : Bytes} {s : Store} {e : StoreEnv} {best : List Mapping}
  {items : List Document} {good : Option Bytes → Prop}

variable {s' : Store} {old : Except TaskError (List Mapping)}

/-- The items of the store as it is: those of `tasks.jsonl`, or those of the legacy store. -/
def heldItems (s : Store) : Except TaskError (List Mapping) :=
  (parseJsonl "tasks.jsonl"
    (if (s.file .tasks).isSome then s.file .tasks else s.legacy.head?)).map Prod.fst

/-- The stores that `save_items_atomic` is called on: recovered ones that are no legacy
stores, and legacy ones whose best known items are published. -/
inductive SaveCall (s : Store) (items : List Document) : Prop
  | mutation (marker : s.marker = false)
      (ready : (s.file .tasks).isSome = true ∨ s.legacy = [])
  | migration (best : List Mapping) (absent : s.file .tasks = none) (legacy : s.legacy ≠ [])
      (read : readLegacyBestKnownGood recordSortTime s = .ok best)
      (items_eq : items = best.map Mapping.document)

/-- What a publication leaves when it stops, and what later recoveries and migrations leave
of that when they stop. -/
inductive Leftover (w : StoreEnv) (prior : Store) (g : Generation) : Store → Prop
  | interrupted (failAt : Option ℕ) (k : ℕ) :
      Leftover w prior g (prior.applyAll ((publishOps w prior g failAt).take k))
  | recovering {s : Store} (e : StoreEnv) {ops : List FileOp} (k : ℕ) (before : Leftover w prior g s)
      (recovery : recoverOps e s = .ok ops) : Leftover w prior g (s.applyAll (ops.take k))
  | migrating {s : Store} (e : StoreEnv) {best written : List Mapping} {g' : Generation}
      (failAt : Option ℕ) (k : ℕ) (before : Leftover w prior g s)
      (absent : s.file .tasks = none) (read : readLegacyBestKnownGood recordSortTime s = .ok best)
      (stage : stageItems e (best.map Mapping.document) = .ok (written, g')) :
      Leftover w prior g (s.applyAll ((publishOps e s g' failAt).take k))

/-- The stores that a writer, or a reader of a store with a `tasks.jsonl`, recovers. -/
inductive Recovers (later : StoreEnv) (s : Store) : Store → Prop
  | writer {s' : Store} (recovered : mutateRecover recordSortTime later s = .ok s') :
      Recovers later s s'
  | reader {s' : Store} {items : List Mapping} (present : (s.file .tasks).isSome = true)
      (loaded : loadItems later true s = .ok (items, s')) : Recovers later s s'

/-- The interrupted store is as good as the old or the new one. -/
structure Sound (later : StoreEnv) (old : Except TaskError (List Mapping)) (new : List Mapping)
    (s : Store) : Prop where
  /-- A writer is not refused. -/
  writer : ∃ s', mutateRecover recordSortTime later s = .ok s'
  /-- A reader has the old items or the new ones. -/
  reader : (loadItems later true s).map Prod.fst = old ∨
    (loadItems later true s).map Prod.fst = .ok new
  /-- Whoever recovers the marker takes it away and leaves the views of the old items or the
  new ones. -/
  recovered : s.marker = true → ∀ s', Recovers recordSortTime later s s' →
    s'.marker = false ∧ ∃ items, (old = .ok items ∨ items = new) ∧ Published later s' items

/-- **The crash-safe publications.**  There is a `tasks.jsonl`, and nothing is renamed or the
items before and after can be generated again; or a legacy store is there to publish from
again, and its items can be generated. -/
def PublishSafe (w later : StoreEnv) (prior : Store) (g : Generation) (new : List Mapping) : Prop :=
  match prior.file .tasks with
  | some _ => changedTargets w prior g = [] ∨
      (∃ items, heldItems prior = .ok items ∧ Regenerable later items) ∧ Regenerable later new
  | none => prior.legacy ≠ [] ∧ Regenerable later new

/-! ### What every leftover keeps -/

/-- The contents that `tasks.jsonl` may have: none, if there was none, and otherwise the old
or the new items, which can be generated again. -/
def GoodFile (later : StoreEnv) (prior : Store) (new : List Mapping) : Option Bytes → Prop
  | none => prior.file .tasks = none
  | some data => ∃ items, Holds data items ∧ (heldItems prior = .ok items ∨ items = new) ∧
      Regenerable later items

/-- **The invariant of interrupted publications.** -/
structure Kept (later : StoreEnv) (prior : Store) (new : List Mapping) (s : Store) : Prop where
  legacy : s.legacy = prior.legacy
  tasks : GoodFile later prior new (s.file .tasks)

/-- What an operation may put in the place of `tasks.jsonl`. -/
def FileOp.Keeps (good : Option Bytes → Prop) : FileOp → Prop
  | .replace .tasks data => good (some data)
  | .restore .tasks data => good data
  | _ => True

variable {recordSortTime}
variable {w later : StoreEnv} {prior : Store} {g : Generation} {new : List Mapping}

theorem FileOp.keeps_of_target {op : FileOp} {t : Target} (h : op.target? = some t)
    (ht : t ≠ .tasks) : op.Keeps good := by
  cases op with
  | replace target data | restore target data =>
    obtain rfl : target = t := Option.some.inj h
    cases target with
    | tasks => exact absurd rfl ht
    | _ => trivial
  | writeMarker | clearMarker => trivial

theorem Kept.apply (h : Kept later prior new s) {op : FileOp}
    (hop : op.Keeps (GoodFile later prior new)) : Kept later prior new (s.apply op) := by
  refine ⟨(apply_legacy s op).trans h.legacy, ?_⟩
  by_cases htarget : op.target? = some .tasks
  · cases op with
    | replace target data | restore target data =>
      obtain rfl : target = .tasks := Option.some.inj htarget
      exact hop
    | writeMarker | clearMarker => cases htarget
  · rw [apply_file_of_ne htarget]
    exact h.tasks

theorem Kept.applyAll_take (h : Kept later prior new s) {ops : List FileOp}
    (hops : ∀ op ∈ ops, op.Keeps (GoodFile later prior new)) (k : ℕ) :
    Kept later prior new (s.applyAll (ops.take k)) := by
  induction ops generalizing s k with
  | nil =>
    rw [List.take_nil]
    exact h
  | cons op ops ih =>
    cases k with
    | zero => exact h
    | succ k =>
      obtain ⟨hop, hrest⟩ := List.forall_mem_cons.mp hops
      rw [List.take_succ_cons, applyAll_cons]
      exact ih (h.apply hop) hrest k

theorem keeps_disableDashboardMirrors :
    ∀ op ∈ disableDashboardMirrors e s, op.Keeps good :=
  fun _ hop => FileOp.keeps_of_target (target?_disableDashboardMirrors hop) (by decide)

theorem keeps_replace {g : Generation} (htasks : good (some (g.bytes .tasks)))
    (ts : List Target) :
    ∀ op ∈ ts.map fun t => FileOp.replace t (g.bytes t), op.Keeps good := by
  intro op hop
  obtain ⟨t, -, rfl⟩ := List.mem_map.mp hop
  cases t with
  | tasks => exact htasks
  | _ => trivial

theorem keeps_restore (hold : good (s.file .tasks)) (ts : List Target) :
    ∀ op ∈ ts.map fun t => FileOp.restore t (s.file t), op.Keeps good := by
  intro op hop
  obtain ⟨t, -, rfl⟩ := List.mem_map.mp hop
  cases t with
  | tasks => exact hold
  | _ => trivial

theorem keeps_publishOps {g : Generation} (htasks : good (some (g.bytes .tasks)))
    (hold : good (s.file .tasks)) (failAt : Option ℕ) :
    ∀ op ∈ publishOps e s g failAt, op.Keeps good := by
  have hrenames : ∀ op ∈ renameOps s g (changedTargets e s g) failAt, op.Keeps good := by
    intro op hop
    unfold renameOps at hop
    split at hop
    · exact keeps_replace htasks _ op hop
    · rcases List.mem_append.mp hop with hrename | hrestore
      · exact keeps_replace htasks _ op (List.mem_of_mem_take hrename)
      · exact keeps_restore hold _ op hrestore
  intro op hop
  unfold publishOps at hop
  rcases List.mem_append.mp hop with hmirror | hop
  · exact keeps_disableDashboardMirrors op hmirror
  split at hop
  · rw [List.mem_singleton.mp hop]
    trivial
  · rcases List.mem_cons.mp hop with rfl | hop
    · trivial
    rcases List.mem_append.mp hop with hrename | hclear
    · exact hrenames op hrename
    · rw [List.mem_singleton.mp hclear]
      trivial

theorem readLegacyBestKnownGood_congr (h : s.legacy = s'.legacy) :
    readLegacyBestKnownGood recordSortTime s = readLegacyBestKnownGood recordSortTime s' := by
  unfold readLegacyBestKnownGood
  rw [h]

theorem filled_bestCandidate {candidates : List (List Mapping)}
    (hall : ∀ items ∈ candidates, ∀ item ∈ items, Filled item)
    (h : bestCandidate recordSortTime candidates = some best) :
    ∀ item ∈ best, Filled item := by
  induction candidates generalizing best with
  | nil => cases h
  | cons items rest ih =>
    obtain ⟨hitems, hrest⟩ := List.forall_mem_cons.mp hall
    unfold bestCandidate at h
    split at h
    · cases h
      exact hitems
    · rename_i candidate hcandidate
      split at h
      · cases h
        exact ih hrest hcandidate
      · cases h
        exact hitems

theorem readLegacyBestKnownGood_eq_ok_iff :
    readLegacyBestKnownGood recordSortTime s = .ok best ↔
      (∀ data ∈ s.legacy, (readText data).isSome = true) ∧
        bestCandidate recordSortTime (s.legacy.filterMap legacyCandidate) = some best := by
  have htext : (s.legacy.any fun data => (readText data).isNone) = false ↔
      ∀ data ∈ s.legacy, (readText data).isSome = true := by
    rw [List.any_eq_false]
    simp only [Bool.not_eq_true, Option.isNone_eq_false_iff]
  unfold readLegacyBestKnownGood
  rw [← htext]
  cases (s.legacy.any fun data => (readText data).isNone) with
  | true =>
    rw [if_pos rfl]
    constructor
    · intro h
      cases h
    · rintro ⟨h, -⟩
      cases h
  | false =>
    rw [if_neg Bool.false_ne_true]
    cases bestCandidate recordSortTime (s.legacy.filterMap legacyCandidate) with
    | none =>
      constructor
      · intro h
        cases h
      · rintro ⟨-, h⟩
        cases h
    | some items =>
      constructor
      · intro h
        exact ⟨rfl, congrArg some (Except.ok.inj h)⟩
      · rintro ⟨-, h⟩
        exact congrArg Except.ok (Option.some.inj h)

theorem legacy_ne_nil (h : readLegacyBestKnownGood recordSortTime s = .ok best) :
    s.legacy ≠ [] := by
  intro hnil
  obtain ⟨-, hbest⟩ := readLegacyBestKnownGood_eq_ok_iff.mp h
  rw [hnil] at hbest
  cases hbest

theorem filled_readLegacyBestKnownGood
    (h : readLegacyBestKnownGood recordSortTime s = .ok best) :
    ∀ item ∈ best, Filled item := by
  refine filled_bestCandidate ?_ (readLegacyBestKnownGood_eq_ok_iff.mp h).2
  intro candidate hcandidate
  obtain ⟨data, -, hread⟩ := List.mem_filterMap.mp hcandidate
  unfold legacyCandidate at hread
  split at hread
  · cases hread
  · rename_i read linesById hparse
    cases hvalid : validateItemsForWrite (read.map Mapping.document) with
    | error e =>
      rw [hvalid] at hread
      cases hread
    | ok written =>
      rw [hvalid] at hread
      cases hread
      exact validateItems_filled hvalid

theorem SaveCall.migration_eq {written : List Mapping}
    (hcall : SaveCall recordSortTime prior items)
    (hstage : stageItems w items = .ok (written, g)) (habsent : prior.file .tasks = none)
    (hlegacy : prior.legacy ≠ []) :
    readLegacyBestKnownGood recordSortTime prior = .ok written := by
  cases hcall with
  | mutation _ ready =>
    rcases ready with hpresent | hnone
    · rw [habsent] at hpresent
      cases hpresent
    · exact absurd hnone hlegacy
  | migration best _ _ read items_eq =>
    subst items_eq
    obtain rfl := validateItems_of_filled (filled_readLegacyBestKnownGood read)
      (stageItems_eq_ok hstage).1
    exact read

theorem goodFile_generation {written : List Mapping} {g' : Generation}
    (hstage : stageItems e items = .ok (written, g'))
    (hregenerable : Regenerable later written)
    (hwhich : heldItems prior = .ok written ∨ written = new) :
    GoodFile later prior new (some (g'.bytes .tasks)) :=
  ⟨written, holds_generation hstage hregenerable.oneLine, hwhich, hregenerable⟩

/-- **Every leftover keeps the invariant.** -/
theorem Leftover.kept (hcall : SaveCall recordSortTime prior items)
    (hstage : stageItems w items = .ok (new, g)) (hnew : Regenerable later new)
    (hprior : GoodFile later prior new (prior.file .tasks))
    (h : Leftover recordSortTime w prior g s) : Kept later prior new s := by
  induction h with
  | interrupted failAt k =>
    have hkept : Kept later prior new prior := ⟨rfl, hprior⟩
    exact hkept.applyAll_take (keeps_publishOps
      (goodFile_generation hstage hnew (.inr rfl)) hprior failAt) k
  | @recovering s e ops k before recovery ih =>
    cases hmarker : s.marker with
    | false =>
      rw [recoverOps_of_marker hmarker] at recovery
      cases recovery
      rw [List.take_nil]
      exact ih
    | true =>
      -- The recovery writes the items it found.
      obtain ⟨data, found, g', hdata, hholds, hstaged, rfl⟩ := recoverOps_eq_ok hmarker recovery
      have hgood := ih.tasks
      rw [hdata] at hgood
      obtain ⟨items, hitems, hwhich, hregenerable⟩ := hgood
      obtain rfl := hitems.unique hholds
      refine ih.applyAll_take ?_ k
      intro op hop
      rcases List.mem_append.mp hop with hop | hclear
      · rcases List.mem_append.mp hop with hmirror | hrename
        · exact keeps_disableDashboardMirrors op hmirror
        · exact keeps_replace (goodFile_generation hstaged hregenerable hwhich) _ op hrename
      · rw [List.mem_singleton.mp hclear]
        trivial
  | @migrating s e best written g' failAt k before absent read stage ih =>
    -- The migration publishes what the first publication did.
    have hprior_absent : prior.file .tasks = none := by
      have hgood := ih.tasks
      rw [absent] at hgood
      exact hgood
    rw [readLegacyBestKnownGood_congr ih.legacy] at read
    have hlegacy : prior.legacy ≠ [] := legacy_ne_nil read
    cases read.symm.trans (hcall.migration_eq hstage hprior_absent hlegacy)
    obtain rfl := validateItems_of_filled (filled_readLegacyBestKnownGood read)
      (stageItems_eq_ok stage).1
    exact ih.applyAll_take (keeps_publishOps
      (goodFile_generation stage hnew (.inr rfl)) ih.tasks failAt) k

/-! ### What the next reader and writer see -/

theorem ensureStoreReady_of_tasks (h : s.file .tasks = some data) :
    ensureStoreReady recordSortTime later s = .ok s := by
  unfold ensureStoreReady
  rw [h]
  rfl

theorem mutateRecover_of_tasks (recordSortTime : Mapping → ℤ) (h : s.file .tasks = some data) :
    mutateRecover recordSortTime later s = recoverInterruptedPublish later s := by
  unfold mutateRecover
  rw [ensureStoreReady_of_tasks h]
  rfl

theorem recoverInterruptedPublish_of_marker (h : s.marker = false) :
    recoverInterruptedPublish later s = .ok s := by
  unfold recoverInterruptedPublish
  rw [recoverOps_of_marker h]
  rfl

theorem loadItems_of_tasks {data' : Bytes} {items : List Mapping}
    (h : s.file .tasks = some data) (hrecover : recoverInterruptedPublish later s = .ok s')
    (hdata' : s'.file .tasks = some data') (hholds : Holds data' items) :
    loadItems later true s = .ok (items, s') := by
  obtain ⟨linesById, hparse⟩ := hholds
  unfold loadItems
  rw [h, hrecover]
  show readItems s' (s'.file .tasks) = _
  unfold readItems
  rw [hdata', hparse]
  rfl

theorem sound_of_clean (hdata : s.file .tasks = some data) (hmarker : s.marker = false)
    (hread : (parseJsonl "tasks.jsonl" (some data)).map Prod.fst = old ∨
      (parseJsonl "tasks.jsonl" (some data)).map Prod.fst = .ok new) :
    Sound recordSortTime later old new s := by
  have hrecover : recoverInterruptedPublish later s = .ok s :=
    recoverInterruptedPublish_of_marker hmarker
  refine ⟨⟨s, (mutateRecover_of_tasks recordSortTime hdata).trans hrecover⟩, ?_, ?_⟩
  · have hload : (loadItems later true s).map Prod.fst =
        (parseJsonl "tasks.jsonl" (some data)).map Prod.fst := by
      unfold loadItems
      rw [hdata, hrecover]
      show (readItems s (s.file .tasks)).map Prod.fst = _
      unfold readItems
      rw [hdata]
      cases parseJsonl "tasks.jsonl" (some data) with
      | error e => rfl
      | ok read => rfl
    rw [hload]
    exact hread
  · intro hmarked
    rw [hmarker] at hmarked
    cases hmarked

theorem sound_of_holds {items : List Mapping} (hdata : s.file .tasks = some data)
    (hholds : Holds data items) (hregenerable : Regenerable later items)
    (hwhich : old = .ok items ∨ items = new) :
    Sound recordSortTime later old new s := by
  cases hmarker : s.marker with
  | false =>
    apply sound_of_clean hdata hmarker
    obtain ⟨linesById, hparse⟩ := hholds
    rw [hparse]
    rcases hwhich with rfl | rfl
    · exact .inl rfl
    · exact .inr rfl
  | true =>
    obtain ⟨g', hstage, hnew⟩ := hregenerable.exists_generation hholds.filled
    have hrecover : recoverInterruptedPublish later s =
        .ok (s.applyAll (regenerateOps later s g')) := by
      unfold recoverInterruptedPublish
      rw [recoverOps_of_holds hmarker hdata hholds hstage]
      rfl
    have hload : loadItems later true s = .ok (items, s.applyAll (regenerateOps later s g')) :=
      loadItems_of_tasks hdata hrecover (regenerateOps_files (by decide)) hnew
    have hwriter := (mutateRecover_of_tasks recordSortTime hdata).trans hrecover
    refine ⟨⟨_, hwriter⟩, ?_, ?_⟩
    · rw [hload]
      rcases hwhich with rfl | rfl
      · exact .inl rfl
      · exact .inr rfl
    · intro _ s' hrecovers
      -- Reader and writer leave the same store.
      have hs' : s' = s.applyAll (regenerateOps later s g') := by
        cases hrecovers with
        | writer recovered => exact (Except.ok.inj (hwriter.symm.trans recovered)).symm
        | reader present loaded =>
          exact (Prod.mk.inj (Except.ok.inj (hload.symm.trans loaded))).2.symm
      rw [hs']
      exact ⟨regenerateOps_marker, items, hwhich,
        published_of_files hstage hnew fun t ht => regenerateOps_files ht⟩

theorem sound_of_legacy (habsent : s.file .tasks = none)
    (hread : readLegacyBestKnownGood recordSortTime s = .ok new)
    (hregenerable : Regenerable later new) :
    Sound recordSortTime later (heldItems s) new s := by
  have hlegacy : s.legacy.isEmpty = false := by
    rw [Bool.eq_false_iff]
    intro hempty
    exact legacy_ne_nil hread (List.isEmpty_iff.mp hempty)
  obtain ⟨g', hstage, hnew⟩ :=
    hregenerable.exists_generation (filled_readLegacyBestKnownGood hread)
  have hready : ensureStoreReady recordSortTime later s =
      .ok (s.applyAll (publishOps later s g' none)) := by
    unfold ensureStoreReady
    rw [habsent, hlegacy, hread]
    show (saveItemsAtomic later s (new.map Mapping.document) >>= _) = _
    unfold saveItemsAtomic
    rw [hstage]
    rfl
  have hwriter : mutateRecover recordSortTime later s =
      .ok (s.applyAll (publishOps later s g' none)) := by
    unfold mutateRecover
    rw [hready]
    exact recoverInterruptedPublish_of_marker publishOps_marker
  refine ⟨⟨_, hwriter⟩, .inl ?_, ?_⟩
  · unfold loadItems heldItems readItems
    rw [habsent]
    show (Except.map (fun read => (read.1, s)) (parseJsonl "tasks.jsonl" s.legacy.head?)).map
      Prod.fst = (parseJsonl "tasks.jsonl" s.legacy.head?).map Prod.fst
    cases parseJsonl "tasks.jsonl" s.legacy.head? with
    | error e => rfl
    | ok read => rfl
  · intro _ s' hrecovers
    cases hrecovers with
    | writer recovered =>
      cases hwriter.symm.trans recovered
      exact ⟨publishOps_marker, new, .inr rfl, published_of_files hstage hnew
        fun t ht => applyAll_publishOps (mem_targets ht) ht⟩
    | reader present _ =>
      rw [habsent] at present
      cases present

theorem Sound.regenerable (h : Sound recordSortTime later old new s)
    (hmarker : s.marker = true) (hdata : s.file .tasks = some data) :
    ∃ items, Holds data items ∧ Regenerable later items := by
  obtain ⟨s', hwriter⟩ := h.writer
  have hrecover := (mutateRecover_of_tasks recordSortTime hdata).symm.trans hwriter
  unfold recoverInterruptedPublish at hrecover
  cases hops : recoverOps later s with
  | error e =>
    rw [hops] at hrecover
    cases hrecover
  | ok ops =>
    rw [hops] at hrecover
    cases hrecover
    obtain ⟨data', items, g', hdata', hholds, hstage, rfl⟩ := recoverOps_eq_ok hmarker hops
    cases hdata.symm.trans hdata'
    obtain ⟨-, others, -, ⟨⟨data'', hdata'', hothers⟩, -⟩⟩ :=
      h.recovered hmarker _ (.writer hwriter)
    rw [regenerateOps_files (by decide)] at hdata''
    cases hdata''
    obtain ⟨hvalid, hgeneration⟩ := stageItems_eq_ok hstage
    have htext := (stagedGeneration_eq_ok (checkedGeneration_eq_ok hgeneration).1).1
    obtain ⟨-, hone⟩ := hothers.of_text hvalid htext
    exact ⟨items, hholds, ⟨items, g', hstage⟩, hone⟩

/-! ### Crashes that show what is missing -/

theorem leftover_marker (recordSortTime : Mapping → ℤ) (hchanged : changedTargets w prior g ≠ []) :
    ∃ s, Leftover recordSortTime w prior g s ∧ s.marker = true ∧
      s.file .tasks = prior.file .tasks ∧ s.legacy = prior.legacy := by
  let ops := disableDashboardMirrors w prior ++ [.writeMarker]
  have hops : publishOps w prior g none =
      ops ++ (renameOps prior g (changedTargets w prior g) none ++ [.clearMarker]) := by
    unfold publishOps
    rw [if_neg hchanged]
    simp [ops]
  have hleft : Leftover recordSortTime w prior g _ := .interrupted none ops.length
  rw [hops, List.take_left] at hleft
  refine ⟨_, hleft, ?_, ?_, applyAll_legacy _ _⟩
  · rw [applyAll_append]
    rfl
  · rw [applyAll_append]
    show (prior.applyAll (disableDashboardMirrors w prior)).file .tasks = _
    apply applyAll_file_of_ne
    intro op hop heq
    rw [target?_disableDashboardMirrors hop] at heq
    cases heq

theorem leftover_tasks (recordSortTime : Mapping → ℤ) (w : StoreEnv) (hchanged : prior.file .tasks ≠ some (g.bytes .tasks)) :
    ∃ s, Leftover recordSortTime w prior g s ∧ s.marker = true ∧
      s.file .tasks = some (g.bytes .tasks) := by
  let ops := disableDashboardMirrors w prior ++
    [.writeMarker, .replace .tasks (g.bytes .tasks)]
  obtain ⟨rest, hrest⟩ : ∃ rest, changedTargets w prior g = .tasks :: rest :=
    ⟨_, List.filter_cons_of_pos (decide_eq_true hchanged)⟩
  have hops : publishOps w prior g none = ops ++
      ((rest.map fun t => .replace t (g.bytes t)) ++ [.clearMarker]) := by
    unfold publishOps
    rw [hrest, if_neg (List.cons_ne_nil _ _)]
    simp [ops, renameOps]
  have hleft : Leftover recordSortTime w prior g _ := .interrupted none ops.length
  rw [hops, List.take_left] at hleft
  refine ⟨_, hleft, ?_, ?_⟩
  · rw [applyAll_append]
    rfl
  · rw [applyAll_append]
    rfl

/-! ### When publishing is crash-atomic -/

theorem applyAll_marker {ops : List FileOp} (hs : s.marker = false)
    (hops : ∀ op ∈ ops, op ≠ .writeMarker) : (s.applyAll ops).marker = false := by
  induction ops generalizing s with
  | nil => exact hs
  | cons op ops ih =>
    obtain ⟨hop, hrest⟩ := List.forall_mem_cons.mp hops
    rw [applyAll_cons]
    apply ih _ hrest
    cases op with
    | replace target data | restore target data => exact hs
    | writeMarker => exact absurd rfl hop
    | clearMarker => rfl

theorem Leftover.clean (hdata : prior.file .tasks = some data) (hmarker : prior.marker = false)
    (hsame : changedTargets w prior g = []) (h : Leftover recordSortTime w prior g s) :
    s.file .tasks = some data ∧ s.marker = false := by
  induction h with
  | interrupted failAt k =>
    have hops : ∀ op ∈ (publishOps w prior g failAt).take k,
        op.target? ≠ some .tasks ∧ op ≠ .writeMarker := by
      intro op hop
      have hop := List.mem_of_mem_take hop
      unfold publishOps at hop
      rw [if_pos hsame] at hop
      rcases List.mem_append.mp hop with hmirror | hclear
      · have htarget := target?_disableDashboardMirrors hmirror
        refine ⟨?_, ?_⟩
        · rw [htarget]
          exact nofun
        · rintro rfl
          cases htarget
      · rw [List.mem_singleton.mp hclear]
        exact ⟨(nofun), nofun⟩
    exact ⟨(applyAll_file_of_ne fun op hop => (hops op hop).1).trans hdata,
      applyAll_marker hmarker fun op hop => (hops op hop).2⟩
  | recovering e k before recovery ih =>
    rw [recoverOps_of_marker ih.2] at recovery
    cases recovery
    rw [List.take_nil]
    exact ih
  | migrating e failAt k before absent read stage ih =>
    rw [ih.1] at absent
    cases absent

theorem heldItems_of_tasks (h : s.file .tasks = some data) :
    heldItems s = (parseJsonl "tasks.jsonl" (some data)).map Prod.fst := by
  unfold heldItems
  rw [h]
  rfl

theorem heldItems_of_holds {items : List Mapping} (h : s.file .tasks = some data)
    (hholds : Holds data items) : heldItems s = .ok items := by
  obtain ⟨linesById, hparse⟩ := hholds
  rw [heldItems_of_tasks h, hparse]
  rfl

theorem heldItems_congr (h : s.file .tasks = none) (h' : s'.file .tasks = none)
    (hlegacy : s.legacy = s'.legacy) : heldItems s = heldItems s' := by
  unfold heldItems
  rw [h, h', hlegacy]

/-- The new items can be generated again if a crash after their `tasks.jsonl` is sound. -/
theorem regenerable_of_sound (hstage : stageItems w items = .ok (new, g))
    (hsound : ∀ s, Leftover recordSortTime w prior g s →
      Sound recordSortTime later (heldItems prior) new s)
    (hchanged : prior.file .tasks ≠ some (g.bytes .tasks)) : Regenerable later new := by
  obtain ⟨hvalid, hgeneration⟩ := stageItems_eq_ok hstage
  have htext := (stagedGeneration_eq_ok (checkedGeneration_eq_ok hgeneration).1).1
  obtain ⟨s, hleft, hmarker, hdata⟩ := leftover_tasks recordSortTime w hchanged
  obtain ⟨found, hholds, hregenerable⟩ := (hsound s hleft).regenerable hmarker hdata
  obtain ⟨rfl, -⟩ := hholds.of_text hvalid htext
  exact hregenerable

/-- **When publishing a task store is crash-atomic.**  Whatever a stopped publication and
stopped recoveries leave, no writer is refused, readers have the old items or the new ones,
and who recovers the marker leaves the views of its items: in exactly the safe publications. -/
theorem publish_atomic_iff {items : List Document} (hcall : SaveCall recordSortTime prior items)
    (hstage : stageItems w items = .ok (new, g)) :
    (∀ s, Leftover recordSortTime w prior g s →
      Sound recordSortTime later (heldItems prior) new s) ↔
      PublishSafe w later prior g new := by
  obtain ⟨hvalid, hgeneration⟩ := stageItems_eq_ok hstage
  have htext := (stagedGeneration_eq_ok (checkedGeneration_eq_ok hgeneration).1).1
  unfold PublishSafe
  cases hfile : prior.file .tasks with
  | none =>
    have hchanged : prior.file .tasks ≠ some (g.bytes .tasks) := by
      rw [hfile]
      exact (Option.some_ne_none _).symm
    have hmem : changedTargets w prior g ≠ [] := by
      intro hnil
      have htasks : Target.tasks ∈ changedTargets w prior g :=
        List.mem_filter.mpr ⟨List.mem_cons_self, decide_eq_true hchanged⟩
      rw [hnil] at htasks
      cases htasks
    constructor
    · intro hsound
      refine ⟨?_, regenerable_of_sound hstage hsound hchanged⟩
      -- Without a legacy store the marker cannot be recovered.
      intro hnil
      obtain ⟨s, hleft, hmarker, htasks, hlegacy⟩ :=
        leftover_marker recordSortTime hmem
      obtain ⟨s', hwriter⟩ := (hsound s hleft).writer
      have hready : ensureStoreReady recordSortTime later s = .ok s := by
        unfold ensureStoreReady
        rw [hlegacy, hnil, List.isEmpty_nil, Bool.or_true]
        rfl
      unfold mutateRecover at hwriter
      rw [hready] at hwriter
      have hrecover : recoverInterruptedPublish later s = .ok s' := hwriter
      unfold recoverInterruptedPublish recoverOps at hrecover
      rw [hmarker, htasks, hfile] at hrecover
      cases hrecover
    · rintro ⟨hlegacy, hnew⟩ s hleft
      have hkept := hleft.kept hcall hstage hnew (show GoodFile later prior new _ from by
        rw [hfile]
        exact hfile)
      cases hs : s.file .tasks with
      | none =>
        have hread := hcall.migration_eq hstage hfile hlegacy
        rw [← readLegacyBestKnownGood_congr hkept.legacy] at hread
        rw [← heldItems_congr hs hfile hkept.legacy]
        exact sound_of_legacy hs hread hnew
      | some data =>
        have hgood := hkept.tasks
        rw [hs] at hgood
        obtain ⟨found, hholds, hwhich, hregenerable⟩ := hgood
        exact sound_of_holds hs hholds hregenerable hwhich
  | some data =>
    simp only
    constructor
    · intro hsound
      by_cases hsame : changedTargets w prior g = []
      · exact .inl hsame
      right
      obtain ⟨s, hleft, hmarker, htasks, -⟩ :=
        leftover_marker recordSortTime hsame
      obtain ⟨found, hholds, hregenerable⟩ :=
        (hsound s hleft).regenerable hmarker (htasks.trans hfile)
      refine ⟨⟨found, heldItems_of_holds hfile hholds, hregenerable⟩, ?_⟩
      by_cases hbytes : data = g.bytes .tasks
      · rw [hbytes] at hholds
        obtain ⟨rfl, -⟩ := hholds.of_text hvalid htext
        exact hregenerable
      · apply regenerable_of_sound hstage hsound
        rw [hfile]
        exact fun heq => hbytes (Option.some.inj heq)
    · rintro (hsame | ⟨⟨held, hheld, hregenerable⟩, hnew⟩) s hleft
      · have hmarker : prior.marker = false := by
          cases hcall with
          | mutation marker _ => exact marker
          | migration best absent _ _ _ =>
            rw [hfile] at absent
            cases absent
        obtain ⟨hdata, hclean⟩ := hleft.clean hfile hmarker hsame
        exact sound_of_clean hdata hclean (.inl (heldItems_of_tasks hfile).symm)
      · have hholds : Holds data held := by
          rw [heldItems_of_tasks hfile] at hheld
          cases hparse : parseJsonl "tasks.jsonl" (some data) with
          | error e =>
            rw [hparse] at hheld
            cases hheld
          | ok read =>
            rw [hparse] at hheld
            cases hheld
            exact ⟨read.2, hparse⟩
        have hkept := hleft.kept hcall hstage hnew (show GoodFile later prior new _ from by
          rw [hfile]
          exact ⟨held, hholds, .inl hheld, hregenerable⟩)
        have hgood := hkept.tasks
        cases hs : s.file .tasks with
        | none =>
          rw [hs] at hgood
          have habsent : prior.file .tasks = none := hgood
          rw [hfile] at habsent
          cases habsent
        | some data' =>
          rw [hs] at hgood
          obtain ⟨found, hfound, hwhich, hagain⟩ := hgood
          exact sound_of_holds hs hfound hagain hwhich

/-- A store whose `tasks.jsonl` is empty. -/
def emptyStore : Store := noStore.setFile .tasks (some [])

theorem regenerable_of_staged {items : List Mapping}
    (h : (stageItems e (items.map Mapping.document)).toOption.isSome = true)
    (hone : ∀ item ∈ items, OneLine item.document.1) : Regenerable e items := by
  cases hstage : stageItems e (items.map Mapping.document) with
  | error e =>
    rw [hstage] at h
    cases h
  | ok staged => exact ⟨⟨staged.1, staged.2, hstage⟩, hone⟩

/-- The first task of an empty store is published crash-atomically. -/
theorem publish_atomic_iff_task : ∃ written g,
    stageItems plainEnv [titledTask "Fix it"] = .ok (written, g) ∧
      ∀ s, Leftover (fun _ => 0) plainEnv emptyStore g s →
        Sound (fun _ => 0) plainEnv (heldItems emptyStore) written s := by
  have hvalid : (stageItems plainEnv [titledTask "Fix it"]).toOption.any (fun staged =>
      (stageItems plainEnv (staged.1.map Mapping.document)).toOption.isSome &&
        decide (∀ item ∈ staged.1, OneLine item.document.1)) = true := by decide +kernel
  cases hstage : stageItems plainEnv [titledTask "Fix it"] with
  | error e =>
    rw [hstage] at hvalid
    cases hvalid
  | ok staged =>
    obtain ⟨written, g⟩ := staged
    rw [hstage] at hvalid
    obtain ⟨hagain, hone⟩ := Bool.and_eq_true_iff.mp hvalid
    have hempty : Regenerable plainEnv [] :=
      regenerable_of_staged (by decide +kernel) nofun
    refine ⟨written, g, rfl, (publish_atomic_iff (.mutation rfl (.inl rfl)) hstage).mpr ?_⟩
    exact .inr ⟨⟨[], rfl, hempty⟩, regenerable_of_staged hagain (of_decide_eq_true hone)⟩

/-- The first publication of a store, stopped after its marker: every later writer is
refused. -/
theorem publish_stuck : ∃ written g s,
    stageItems plainEnv [titledTask "Fix it"] = .ok (written, g) ∧
      Leftover (fun _ => 0) plainEnv noStore g s ∧
      mutateRecover (fun _ => 0) plainEnv s = .error (.taskError
        (".tasks-publish-incomplete.json: interrupted task publish " ++
          "cannot recover because tasks.jsonl is missing")) := by
  have hvalid : (stageItems plainEnv [titledTask "Fix it"]).toOption.isSome = true := by
    decide +kernel
  cases hstage : stageItems plainEnv [titledTask "Fix it"] with
  | error e =>
    rw [hstage] at hvalid
    cases hvalid
  | ok staged =>
    obtain ⟨s, hleft, hmarker, htasks, hlegacy⟩ :=
      leftover_marker (fun _ => 0)
        (show changedTargets plainEnv noStore staged.2 ≠ [] from List.cons_ne_nil _ _)
    refine ⟨staged.1, staged.2, s, rfl, hleft, ?_⟩
    have hready : ensureStoreReady (fun _ => 0) plainEnv s = .ok s := by
      unfold ensureStoreReady
      rw [hlegacy]
      show (if (_ || true) = true then _ else _) = _
      rw [Bool.or_true, if_pos rfl]
    unfold mutateRecover
    rw [hready]
    show recoverInterruptedPublish plainEnv s = _
    unfold recoverInterruptedPublish recoverOps
    rw [hmarker, htasks]
    rfl

end GoalFlight.Tasks
