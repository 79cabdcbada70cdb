import GoalFlight.Capacity.Admission
import GoalFlight.Dispatch.Documents
import Mathlib.Data.List.Dedup

/-!
# Dispatch: what became of the linked tasks

A queued dispatch may be linked to tasks.  `_linked_task_truth_detail` asks the task store
and the ledger whether others finished or advanced the tasks since the dispatch was queued,
and combines the answers by counting.

`linkedTaskTruth_eq_allComplete_iff` and `linkedTaskTruth_eq_someAdvanced_iff` turn the counts
back into statements about the tasks.
-/

namespace GoalFlight.Dispatch

open Json GoalFlight.Capacity

variable {created : Option Seconds}

/-! ### The linked tasks and the owner's root -/

/-- `_entry_task_ids`, of the ids its sources hold: without blanks around them, empty ones
and repetitions. -/
def taskIdsOf (raw : List String) : List String :=
  ((raw.map strip).filter (· ≠ "")).reverse.dedup.reverse

theorem nodup_taskIdsOf (raw : List String) : (taskIdsOf raw).Nodup :=
  List.nodup_reverse.mpr (List.nodup_dedup _)

/-- `_entry_owner_fields(…)[1]`: the first root that is given, without blanks around it. -/
def ownerRoot (roots : List (Option String)) : Option String :=
  given ((roots.findSome? given).map strip)

/-! ### Order of completion -/

/-- `_completion_order`. -/
inductive CompletionOrder
  | indeterminate
  | equal
  | after
  | before
deriving DecidableEq

/-- `_completion_order`: a missing time and an equal one prove no order. -/
def completionOrder (completion created : Option Seconds) : CompletionOrder :=
  match completion, created with
  | some completion, some created =>
    if completion = created then .equal
    else if created < completion then .after
    else .before
  | _, _ => .indeterminate

theorem completionOrder_eq_after_iff {completion : Option Seconds} :
    completionOrder completion created = .after ↔
      ∃ t t₀, completion = some t ∧ created = some t₀ ∧ t₀ < t := by
  unfold completionOrder
  split
  · rename_i t t₀
    constructor
    · intro h
      refine ⟨t, t₀, rfl, rfl, ?_⟩
      by_contra hle
      rw [if_neg hle] at h
      split at h <;> cases h
    · rintro ⟨t', t₀', ht, ht₀, hlt⟩
      cases ht
      cases ht₀
      rw [if_neg hlt.ne', if_pos hlt]
  · rename_i hmissing
    constructor
    · intro h
      cases h
    · rintro ⟨t, t₀, rfl, rfl, -⟩
      exact absurd rfl (hmissing t t₀ rfl)

/-! ### The task store -/

/-- A derived row of the task store. -/
structure TaskRow where
  id : String
  done : Value := .null
  doneReviewed : Value := .null
  doneAt : Stamp := .absent
  doneReviewedAt : Stamp := .absent
  closedAt : Stamp := .absent

/-- `_task_row_durably_complete`. -/
def TaskRow.durablyComplete (t : TaskRow) : Bool :=
  t.doneReviewed = .bool true || t.done = .bool true

/-- `_task_row_completion_timestamp_s`. -/
def TaskRow.completionTime (t : TaskRow) : Option Seconds :=
  t.doneAt.seconds?.or (t.doneReviewedAt.seconds?.or t.closedAt.seconds?)

/-- `by_id.get(task_id)`: of two rows with one id the later one counts. -/
def taskRow (rows : List TaskRow) (id : String) : Option TaskRow :=
  rows.reverse.find? fun row => row.id = id

/-- The order of a task's completion in the store, if it is complete there. -/
def storeOrder (rows : List TaskRow) (created : Option Seconds) (id : String) :
    Option CompletionOrder :=
  ((taskRow rows id).filter TaskRow.durablyComplete).map fun row =>
    completionOrder row.completionTime created

/-! ### The ledger -/

/-- Why an answer is undecided. -/
inductive TruthIssue
  | taskStoreUnavailable
  | ledgerUnavailable
  | timestampIndeterminate
  | timestampEqual
deriving DecidableEq

/-- The issue as the source writes it. -/
def TruthIssue.text : TruthIssue → String
  | .taskStoreUnavailable => "task_store_unavailable"
  | .ledgerUnavailable => "ledger_unavailable"
  | .timestampIndeterminate => "timestamp_indeterminate"
  | .timestampEqual => "timestamp_equal"

/-- `issue.endswith("_unavailable")`. -/
def TruthIssue.isUnavailable : TruthIssue → Bool
  | .taskStoreUnavailable | .ledgerUnavailable => true
  | _ => false

/-- What a row of another dispatch says of the tasks it shares. -/
inductive RowTruth
  | silent
  | completed (order : CompletionOrder)
  | advanced
deriving DecidableEq

/-- The attention markers that leave a question open. -/
def rulingMarkers : List String := ["BLOCKED", "USER-NEED", "USER-CONFIRM"]

/-- The character is in `[\w:-]`. -/
def isMarkerChar (c : Char) : Bool := c.isAlphanum || c = '_' || c = ':' || c = '-'

/-- An attention marker stands alone somewhere in the text that follows `before`. -/
def mentionsRulingAfter (before : Option Char) : List Char → Bool
  | [] => false
  | c :: rest =>
    (!(before.any isMarkerChar) && rulingMarkers.any fun kind =>
      let token := ("attention_marker:" ++ kind).toList
      token.isPrefixOf (c :: rest) && !((c :: rest).drop token.length).head?.any isMarkerChar) ||
    mentionsRulingAfter (some c) rest

/-- `record["terminal_marker"]["kind"]`, or the kind the reason has. -/
def LedgerRow.markerKind (r : LedgerRow) : Value :=
  (r.terminalMarker.get "kind").orElse (r.cause.get "marker_kind")

/-- The text of the reason. -/
def LedgerRow.reasonText (r : LedgerRow) : String :=
  if r.cause.isDict then (textOf (r.cause.get "reason")).getD "" else (textOf r.cause).getD ""

/-- A row that stopped with a question waits for a ruling; it has not advanced its tasks. -/
def LedgerRow.awaitingRuling (r : LedgerRow) : Bool :=
  if r.deathCause.truthy then
    rulingMarkers.any fun kind => r.deathCause = .str ("attention_marker:" ++ kind)
  else if r.markerKind.truthy then rulingMarkers.any fun kind => r.markerKind = .str kind
  else mentionsRulingAfter none r.reasonText.toList

/-- What the ledger scan is asked for. -/
structure ScanMode where
  allowNoWorkDead : Bool := false
  blockLiveDispatches : Bool := false
  /-- `_redispatch_record_has_no_advanced_work`. -/
  hasNoAdvancedWork : LedgerRow → Bool := fun _ => false

/-- The row succeeded. -/
def LedgerRow.succeeded (r : LedgerRow) : Bool :=
  r.state ∈ successTerminalRecordStates || r.terminalKey ∈ successTerminalRecordStates

/-- The row is a worker's death. -/
def LedgerRow.workerDead (r : LedgerRow) : Bool :=
  r.state = "worker_dead" || r.terminalKey = "worker_dead"

/-- The row was superseded or its worker died. -/
def LedgerRow.stopped (r : LedgerRow) : Bool :=
  r.state = "superseded" || r.terminalKey = "superseded" || r.workerDead

/-- The row was retired: it is not progress of its tasks. -/
def LedgerRow.retired (r : LedgerRow) : Bool :=
  r.withdrawnBy.truthy && (r.terminalKey = "withdrawn" || r.terminalKey = "superseded")

/-- The row is in a state that is not final. -/
def LedgerRow.live (r : LedgerRow) (mode : ScanMode) : Bool :=
  (mode.blockLiveDispatches &&
      (r.state ∈ ["queued", "waiting_capacity", "starting"] || !isTerminalState r.state)) ||
    (r.state ≠ "" && !isTerminalState r.state &&
      r.state ∉ ["queued", "waiting_capacity", "submitted"])

/-- The loop body of `_ledger_task_ids_advanced`, for a row that shares a task. -/
def LedgerRow.truth (r : LedgerRow) (mode : ScanMode) (created : Option Seconds) : RowTruth :=
  if r.supersededBy.truthy then .silent
  else if r.retired then .silent
  else if r.succeeded then .completed (completionOrder r.endedAt.seconds? created)
  else if r.stopped then
    if r.workerDead ∧ r.awaitingRuling then .silent
    else if r.workerDead ∧ mode.allowNoWorkDead ∧ mode.hasNoAdvancedWork r then .silent
    else .advanced
  else if r.live mode then .advanced
  else .silent

/-- The dispatch whose tasks are asked for. -/
structure TaskQuery where
  ids : List String
  nodup : ids.Nodup
  dispatchId : String
  projectRoot : Option String
  created : Option Seconds
  exemptIds : List String
  mode : ScanMode

/-- What the truth is read from. -/
structure TaskSources where
  /-- `store.derived_rows_for_items(…)`, or an unreadable store. -/
  store : Option (List TaskRow)
  /-- `_pass_ledger_records`, or an unreadable ledger. -/
  records : Option (List LedgerRow)
  /-- `_normalized_project_root` of a path that is given. -/
  normalizedRoot : String → String

/-- `_project_roots_match`. -/
def TaskSources.rootsMatch (src : TaskSources) (left right : Option String) : Prop :=
  ∃ a b, given left = some a ∧ given right = some b ∧
    src.normalizedRoot a = src.normalizedRoot b

instance (src : TaskSources) (left right : Option String) :
    Decidable (src.rootsMatch left right) :=
  decidable_of_iff
    (∃ a ∈ given left, ∃ b ∈ given right, src.normalizedRoot a = src.normalizedRoot b)
    ⟨fun ⟨a, ha, b, hb, h⟩ => ⟨a, b, ha, hb, h⟩, fun ⟨a, b, ha, hb, h⟩ => ⟨a, ha, b, hb, h⟩⟩

/-- The row is of another dispatch of the project that shares the task. -/
def TaskSources.sharesTask (src : TaskSources) (q : TaskQuery) (id : String) (r : LedgerRow) :
    Prop :=
  r.dispatchId ≠ q.dispatchId ∧ r.dispatchId ∉ q.exemptIds ∧ id ∈ taskIdsOf r.taskIds ∧
    src.rootsMatch q.projectRoot (ownerRoot [r.projectRoot])

instance (src : TaskSources) (q : TaskQuery) (id : String) (r : LedgerRow) :
    Decidable (src.sharesTask q id r) := inferInstanceAs (Decidable (_ ∧ _ ∧ _ ∧ _))

/-- The ledger, if every row of it reads. -/
def TaskSources.readableRecords (src : TaskSources) : Option (List LedgerRow) :=
  src.records.filter fun records => records.all fun r => ¬ r.Unreadable

/-- Some row says this of the task. -/
def TaskSources.rowSays (src : TaskSources) (q : TaskQuery) (truth : RowTruth → Bool)
    (id : String) : Bool :=
  (src.readableRecords.getD []).any fun r =>
    src.sharesTask q id r ∧ truth (r.truth q.mode q.created)

/-- The task is in `complete_tasks`. -/
def TaskSources.ledgerComplete (src : TaskSources) (q : TaskQuery) : String → Bool :=
  src.rowSays q fun truth => truth = .completed .after

/-- The task is in `advanced_tasks`. -/
def TaskSources.ledgerAdvanced (src : TaskSources) (q : TaskQuery) : String → Bool :=
  src.rowSays q fun truth => truth = .completed .after || truth = .advanced

/-- The conclusion of `_ledger_task_ids_advanced`, when it is not conclusive. -/
def TaskSources.ledgerIssue (src : TaskSources) (q : TaskQuery) : Option TruthIssue :=
  let unresolved (order : CompletionOrder) := q.ids.any fun id =>
    src.rowSays q (fun truth => truth = .completed order) id && !src.ledgerComplete q id
  if src.readableRecords = none then some .ledgerUnavailable
  else if unresolved .indeterminate then some .timestampIndeterminate
  else if unresolved .equal then some .timestampEqual
  else none

/-! ### The store -/

/-- The task is complete in the store, strictly after the dispatch was queued. -/
def TaskSources.storeComplete (src : TaskSources) (q : TaskQuery) (id : String) : Bool :=
  storeOrder (src.store.getD []) q.created id = some .after

/-- The issue of the store. -/
def TaskSources.storeIssue (src : TaskSources) (q : TaskQuery) : Option TruthIssue :=
  match src.store with
  | none => some .taskStoreUnavailable
  | some rows =>
    if q.ids.any fun id => storeOrder rows q.created id = some .indeterminate then
      some .timestampIndeterminate
    else if q.ids.any fun id => storeOrder rows q.created id = some .equal then
      some .timestampEqual
    else none

/-! ### The truth -/

/-- What `_linked_task_truth_detail` returns, with the cause and the sources of an undecided
answer. -/
inductive TaskTruth
  | unlinked
  | allComplete
  | someAdvanced
  | indeterminate (cause : String) (sources : List TruthIssue)
  | none
deriving DecidableEq

/-- How many of the tasks meet a condition. -/
def TaskQuery.count (q : TaskQuery) (p : String → Bool) : ℕ := (q.ids.filter p).length

/-- `cause` of an undecided answer. -/
def indeterminateCause (issues : List TruthIssue) : String :=
  if issues.any TruthIssue.isUnavailable then "authority_unavailable"
  else if TruthIssue.timestampIndeterminate ∈ issues then "timestamp_indeterminate"
  else "timestamp_equal"

/-- `_linked_task_truth_detail`. -/
def TaskSources.linkedTaskTruth (src : TaskSources) (q : TaskQuery) : TaskTruth :=
  if q.ids = [] then .unlinked
  else
    let n := q.ids.length
    let storeSeen := q.count fun id => (taskRow (src.store.getD []) id).isSome
    let storeComplete := q.count (src.storeComplete q)
    let ledgerComplete := q.count (src.ledgerComplete q)
    let ledgerAdvanced := q.count (src.ledgerAdvanced q)
    let advanced := max storeComplete (max ledgerAdvanced ledgerComplete)
    if storeSeen = n ∧ storeComplete = n then .allComplete
    else if n ≤ ledgerComplete then .allComplete
    else if n ≤ storeComplete + ledgerComplete ∧ (0 < storeComplete ∨ 0 < ledgerComplete) ∧
        n ≤ storeComplete then .allComplete
    else if 0 < storeComplete ∧ storeComplete < n then .someAdvanced
    else if 0 < advanced ∧ advanced < n ∨ 0 < ledgerAdvanced ∧ ledgerComplete < n then
      .someAdvanced
    else if n ≤ storeComplete ∨ n ≤ ledgerComplete then .allComplete
    else
      match [src.storeIssue q, src.ledgerIssue q].filterMap id with
      | [] => .none
      | issues => .indeterminate (indeterminateCause issues) issues

/-! ### Counts and tasks -/

theorem TaskQuery.count_le (q : TaskQuery) (p : String → Bool) : q.count p ≤ q.ids.length :=
  List.length_filter_le p q.ids

theorem TaskQuery.count_eq_length_iff (q : TaskQuery) (p : String → Bool) :
    q.count p = q.ids.length ↔ ∀ id ∈ q.ids, p id = true :=
  List.length_filter_eq_length_iff

theorem TaskQuery.count_pos_iff (q : TaskQuery) (p : String → Bool) :
    0 < q.count p ↔ ∃ id ∈ q.ids, p id = true := by
  unfold TaskQuery.count
  rw [List.length_pos_iff_exists_mem]
  simp only [List.mem_filter]

theorem TaskQuery.count_mono (q : TaskQuery) {p p' : String → Bool}
    (h : ∀ id, p id = true → p' id = true) : q.count p ≤ q.count p' :=
  (List.monotone_filter_right q.ids h).length_le

theorem TaskSources.ledgerAdvanced_of_ledgerComplete {src : TaskSources} {q : TaskQuery}
    {id : String} (h : src.ledgerComplete q id = true) : src.ledgerAdvanced q id = true := by
  unfold TaskSources.ledgerComplete TaskSources.rowSays at h
  unfold TaskSources.ledgerAdvanced TaskSources.rowSays
  rw [List.any_eq_true] at h ⊢
  obtain ⟨r, hr, hholds⟩ := h
  refine ⟨r, hr, ?_⟩
  simp only [decide_eq_true_eq] at hholds ⊢
  exact ⟨hholds.1, by simp [hholds.2]⟩

theorem TaskSources.seen_of_storeComplete {src : TaskSources} {q : TaskQuery} {id : String}
    (h : src.storeComplete q id = true) : (taskRow (src.store.getD []) id).isSome = true := by
  unfold TaskSources.storeComplete storeOrder at h
  cases hrow : taskRow (src.store.getD []) id with
  | none => simp [hrow] at h
  | some row => rfl

variable {src : TaskSources} {q : TaskQuery}

/-- **The counts, combined.**  The ladder of comparisons comes to three cases. -/
theorem TaskSources.linkedTaskTruth_eq (hne : q.ids ≠ []) :
    src.linkedTaskTruth q =
      if q.count (src.storeComplete q) = q.ids.length ∨
          q.count (src.ledgerComplete q) = q.ids.length then .allComplete
      else if 0 < q.count (src.storeComplete q) ∨ 0 < q.count (src.ledgerAdvanced q) then
        .someAdvanced
      else
        match [src.storeIssue q, src.ledgerIssue q].filterMap id with
        | [] => .none
        | issues => .indeterminate (indeterminateCause issues) issues := by
  have hpos : 0 < q.ids.length := List.length_pos_iff.mpr hne
  have hstore := q.count_le (src.storeComplete q)
  have hledger : q.count (src.ledgerComplete q) ≤ q.count (src.ledgerAdvanced q) :=
    q.count_mono fun _ => TaskSources.ledgerAdvanced_of_ledgerComplete
  have hadvanced := q.count_le (src.ledgerAdvanced q)
  have hseen := q.count_le fun id => (taskRow (src.store.getD []) id).isSome
  have hseenStore : q.count (src.storeComplete q) ≤
      q.count fun id => (taskRow (src.store.getD []) id).isSome :=
    q.count_mono fun _ => TaskSources.seen_of_storeComplete
  unfold TaskSources.linkedTaskTruth
  rw [if_neg hne]
  dsimp only
  split_ifs <;> first | rfl | omega

theorem TaskSources.linkedTaskTruth_of_isEmpty (h : q.ids = []) :
    src.linkedTaskTruth q = .unlinked :=
  if_pos h

/-- **All complete**: every task is, in the store alone or in the ledger alone. -/
theorem TaskSources.linkedTaskTruth_eq_allComplete_iff :
    src.linkedTaskTruth q = .allComplete ↔ q.ids ≠ [] ∧
      ((∀ id ∈ q.ids, src.storeComplete q id = true) ∨
        ∀ id ∈ q.ids, src.ledgerComplete q id = true) := by
  by_cases hne : q.ids = []
  · rw [linkedTaskTruth_of_isEmpty hne]
    simp [hne]
  · rw [linkedTaskTruth_eq hne, ← q.count_eq_length_iff, ← q.count_eq_length_iff]
    constructor
    · intro h
      refine ⟨hne, ?_⟩
      by_contra hnot
      rw [if_neg hnot] at h
      split at h
      · cases h
      · split at h <;> cases h
    · rintro ⟨-, hall⟩
      rw [if_pos hall]

/-- **Some advanced**: not all are complete in one place, and some task is complete in the
store or advanced in the ledger. -/
theorem TaskSources.linkedTaskTruth_eq_someAdvanced_iff :
    src.linkedTaskTruth q = .someAdvanced ↔
      src.linkedTaskTruth q ≠ .allComplete ∧
        ∃ id ∈ q.ids, src.storeComplete q id = true ∨ src.ledgerAdvanced q id = true := by
  by_cases hne : q.ids = []
  · rw [linkedTaskTruth_of_isEmpty hne]
    simp [hne]
  · have hsome : (0 < q.count (src.storeComplete q) ∨ 0 < q.count (src.ledgerAdvanced q)) ↔
        ∃ id ∈ q.ids, src.storeComplete q id = true ∨ src.ledgerAdvanced q id = true := by
      rw [q.count_pos_iff, q.count_pos_iff]
      constructor
      · rintro (⟨id, hid, h⟩ | ⟨id, hid, h⟩)
        · exact ⟨id, hid, .inl h⟩
        · exact ⟨id, hid, .inr h⟩
      · rintro ⟨id, hid, h | h⟩
        · exact .inl ⟨id, hid, h⟩
        · exact .inr ⟨id, hid, h⟩
    rw [linkedTaskTruth_eq hne, ← hsome]
    constructor
    · intro h
      split at h
      · cases h
      · rename_i hnot
        split at h
        · rename_i hadvanced
          rw [if_neg hnot, if_pos hadvanced]
          exact ⟨by simp, hadvanced⟩
        · split at h <;> cases h
    · rintro ⟨hnot, hadvanced⟩
      split at hnot
      · exact absurd rfl hnot
      · rename_i hpartial
        rw [if_neg hpartial, if_pos hadvanced]

/-! ### What a completion and an advance are -/

/-- A task is complete in the store when its row there is durably complete and was completed
strictly after the dispatch was queued. -/
def TaskSources.CompletedInStore (src : TaskSources) (q : TaskQuery) (id : String) : Prop :=
  ∃ rows row t t₀, src.store = some rows ∧ taskRow rows id = some row ∧
    row.durablyComplete = true ∧ row.completionTime = some t ∧ q.created = some t₀ ∧ t₀ < t

/-- The ledger holds such a row of another dispatch of the project, and all of it reads. -/
def TaskSources.HasSharingRow (src : TaskSources) (q : TaskQuery) (id : String)
    (p : LedgerRow → Prop) : Prop :=
  ∃ records, src.records = some records ∧ (∀ r ∈ records, ¬ r.Unreadable) ∧
    ∃ r ∈ records, src.sharesTask q id r ∧ p r

/-- The row was neither replaced nor retired. -/
def LedgerRow.Counts (r : LedgerRow) : Prop := r.supersededBy.truthy = false ∧ r.retired = false

/-- A task is complete in the ledger when another dispatch of the project succeeded with it
strictly after this one was queued. -/
def TaskSources.CompletedInLedger (src : TaskSources) (q : TaskQuery) (id : String) : Prop :=
  src.HasSharingRow q id fun r => r.Counts ∧ r.succeeded = true ∧
    ∃ t t₀, r.endedAt.seconds? = some t ∧ q.created = some t₀ ∧ t₀ < t

/-- A task is advanced when another dispatch of the project that has not succeeded with it is
still live, or was superseded or died at whatever time, with no question left open. -/
def TaskSources.AdvancedInLedger (src : TaskSources) (q : TaskQuery) (id : String) : Prop :=
  src.HasSharingRow q id fun r => r.Counts ∧ r.succeeded = false ∧
    ((r.stopped = true ∧ ¬ (r.workerDead = true ∧ r.awaitingRuling = true)) ∨
      r.live q.mode = true)

/-- A completion of the task is on record whose order with the queueing cannot be told, as
one of the two times is missing or does not read. -/
def TaskSources.CompletedUntimed (src : TaskSources) (q : TaskQuery) (id : String) : Prop :=
  (∃ rows row, src.store = some rows ∧ taskRow rows id = some row ∧
    row.durablyComplete = true ∧ (row.completionTime = none ∨ q.created = none)) ∨
  src.HasSharingRow q id fun r =>
    r.Counts ∧ r.succeeded = true ∧ (r.endedAt.seconds? = none ∨ q.created = none)

theorem TaskSources.HasSharingRow.imp {id : String} {p p' : LedgerRow → Prop}
    (h : src.HasSharingRow q id p) (hp : ∀ r, p r → p' r) : src.HasSharingRow q id p' := by
  obtain ⟨records, hrecords, hreadable, r, hr, hshares, hr'⟩ := h
  exact ⟨records, hrecords, hreadable, r, hr, hshares, hp r hr'⟩

theorem storeOrder_eq_some_iff {rows : List TaskRow} {id : String} {order : CompletionOrder} :
    storeOrder rows created id = some order ↔
      ∃ row, taskRow rows id = some row ∧ row.durablyComplete = true ∧
        completionOrder row.completionTime created = order := by
  unfold storeOrder
  rw [Option.map_eq_some_iff]
  constructor
  · rintro ⟨row, hrow, horder⟩
    obtain ⟨hrow, hcomplete⟩ := Option.filter_eq_some_iff.mp hrow
    exact ⟨row, hrow, hcomplete, horder⟩
  · rintro ⟨row, hrow, hcomplete, horder⟩
    exact ⟨row, Option.filter_eq_some_iff.mpr ⟨hrow, hcomplete⟩, horder⟩

theorem TaskSources.storeComplete_iff {id : String} :
    src.storeComplete q id = true ↔ src.CompletedInStore q id := by
  unfold TaskSources.storeComplete
  rw [decide_eq_true_eq, storeOrder_eq_some_iff]
  constructor
  · rintro ⟨row, hrow, hcomplete, horder⟩
    obtain ⟨t, t₀, ht, ht₀, hlt⟩ := completionOrder_eq_after_iff.mp horder
    cases hstore : src.store with
    | none =>
      rw [hstore] at hrow
      cases hrow
    | some rows =>
      rw [hstore] at hrow
      exact ⟨rows, row, t, t₀, hstore, hrow, hcomplete, ht, ht₀, hlt⟩
  · rintro ⟨rows, row, t, t₀, hstore, hrow, hcomplete, ht, ht₀, hlt⟩
    refine ⟨row, ?_, hcomplete, completionOrder_eq_after_iff.mpr ⟨t, t₀, ht, ht₀, hlt⟩⟩
    rw [hstore]
    exact hrow

/-- The ledger speaks of a task only where all of it reads, through a row of the project's
that another dispatch left. -/
theorem TaskSources.rowSays_iff {truth : RowTruth → Bool} {id : String} :
    src.rowSays q truth id = true ↔
      src.HasSharingRow q id fun r => truth (r.truth q.mode q.created) = true := by
  unfold TaskSources.rowSays TaskSources.readableRecords TaskSources.HasSharingRow
  cases src.records with
  | none => simp
  | some records =>
    by_cases hall : ∀ r ∈ records, ¬ r.Unreadable
    · have hfilter : (some records).filter
          (fun records => records.all fun r => decide ¬ r.Unreadable) = some records := by
        rw [Option.filter_eq_some_iff]
        exact ⟨rfl, List.all_eq_true.mpr fun r hr => decide_eq_true (hall r hr)⟩
      rw [hfilter, Option.getD_some, List.any_eq_true]
      simp only [decide_eq_true_eq]
      constructor
      · rintro ⟨r, hr, hshares, htruth⟩
        exact ⟨records, rfl, hall, r, hr, hshares, htruth⟩
      · rintro ⟨records', hrecords, -, r, hr, hshares, htruth⟩
        cases hrecords
        exact ⟨r, hr, hshares, htruth⟩
    · have hfilter : (some records).filter
          (fun records => records.all fun r => decide ¬ r.Unreadable) = none := by
        rw [Option.filter_eq_none_iff]
        intro records' hrecords hok
        cases hrecords
        exact hall fun r hr => of_decide_eq_true (List.all_eq_true.mp hok r hr)
      rw [hfilter]
      constructor
      · intro h
        cases h
      · rintro ⟨records', hrecords, hall', -⟩
        cases hrecords
        exact absurd hall' hall

theorem LedgerRow.truth_eq_completed_iff {r : LedgerRow} {mode : ScanMode}
    {order : CompletionOrder} :
    r.truth mode created = .completed order ↔
      r.Counts ∧ r.succeeded = true ∧ completionOrder r.endedAt.seconds? created = order := by
  unfold LedgerRow.truth LedgerRow.Counts
  cases r.supersededBy.truthy <;> cases r.retired <;> cases r.succeeded <;> simp
  all_goals split_ifs <;> simp

theorem LedgerRow.truth_eq_advanced {r : LedgerRow} {mode : ScanMode}
    (h : r.truth mode created = .advanced) :
    r.Counts ∧ r.succeeded = false ∧
      ((r.stopped = true ∧ ¬ (r.workerDead = true ∧ r.awaitingRuling = true)) ∨
        r.live mode = true) := by
  unfold LedgerRow.truth at h
  split at h
  · cases h
  rename_i hreplaced
  split at h
  · cases h
  rename_i hretired
  split at h
  · cases h
  rename_i hsucceeded
  refine ⟨⟨Bool.eq_false_iff.mpr hreplaced, Bool.eq_false_iff.mpr hretired⟩,
    Bool.eq_false_iff.mpr hsucceeded, ?_⟩
  split at h
  · rename_i hstopped
    split at h
    · cases h
    · rename_i hruling
      exact .inl ⟨hstopped, hruling⟩
  · split at h
    · rename_i hlive
      exact .inr hlive
    · cases h

theorem TaskSources.ledgerComplete_iff {id : String} :
    src.ledgerComplete q id = true ↔ src.CompletedInLedger q id := by
  unfold TaskSources.ledgerComplete TaskSources.CompletedInLedger
  rw [rowSays_iff]
  simp only [decide_eq_true_eq, LedgerRow.truth_eq_completed_iff, completionOrder_eq_after_iff]

/-- A task that is advanced in the ledger is complete there, or advanced without that. -/
theorem TaskSources.completed_or_advanced {id : String}
    (h : src.ledgerAdvanced q id = true) :
    src.CompletedInLedger q id ∨ src.AdvancedInLedger q id := by
  unfold TaskSources.ledgerAdvanced at h
  obtain ⟨records, hrecords, hreadable, r, hr, hshares, htruth⟩ := rowSays_iff.mp h
  simp only [Bool.or_eq_true, decide_eq_true_eq] at htruth
  obtain hcompleted | hadvanced := htruth
  · left
    rw [← ledgerComplete_iff]
    exact rowSays_iff.mpr ⟨records, hrecords, hreadable, r, hr, hshares, by simpa using hcompleted⟩
  · right
    exact ⟨records, hrecords, hreadable, r, hr, hshares, LedgerRow.truth_eq_advanced hadvanced⟩

/-! ### What an undecided answer rests on -/

theorem completionOrder_eq_indeterminate_iff {completion : Option Seconds} :
    completionOrder completion created = .indeterminate ↔ completion = none ∨ created = none := by
  unfold completionOrder
  split
  · simp only [reduceCtorEq, or_self, iff_false]
    split_ifs <;> simp
  · rename_i hmissing
    simp only [true_iff]
    by_contra hboth
    rw [not_or] at hboth
    obtain ⟨t, rfl⟩ := Option.ne_none_iff_exists'.mp hboth.1
    obtain ⟨t₀, rfl⟩ := Option.ne_none_iff_exists'.mp hboth.2
    exact hmissing t t₀ rfl rfl

theorem TaskSources.untimed_of_storeIssue
    (h : src.storeIssue q = some .timestampIndeterminate) :
    ∃ id ∈ q.ids, src.CompletedUntimed q id := by
  unfold TaskSources.storeIssue at h
  split at h
  · cases h
  rename_i rows hstore
  split at h
  · rename_i hany
    obtain ⟨id, hid, horder⟩ := List.any_eq_true.mp hany
    obtain ⟨row, hrow, hcomplete, horder⟩ :=
      storeOrder_eq_some_iff.mp (of_decide_eq_true horder)
    exact ⟨id, hid, .inl ⟨rows, row, hstore, hrow, hcomplete,
      completionOrder_eq_indeterminate_iff.mp horder⟩⟩
  · split at h <;> cases h

theorem TaskSources.untimed_of_ledgerIssue
    (h : src.ledgerIssue q = some .timestampIndeterminate) :
    ∃ id ∈ q.ids, src.CompletedUntimed q id := by
  unfold TaskSources.ledgerIssue at h
  dsimp only at h
  split at h
  · cases h
  split at h
  · rename_i hany
    obtain ⟨id, hid, hholds⟩ := List.any_eq_true.mp hany
    refine ⟨id, hid, .inr ?_⟩
    refine (rowSays_iff.mp (Bool.and_eq_true_iff.mp hholds).1).imp ?_
    intro r htruth
    obtain ⟨hcounts, hsucceeded, horder⟩ :=
      LedgerRow.truth_eq_completed_iff.mp (of_decide_eq_true htruth)
    exact ⟨hcounts, hsucceeded, completionOrder_eq_indeterminate_iff.mp horder⟩
  · split at h <;> cases h

theorem TaskSources.untimed_of_cause {issues : List TruthIssue}
    (h : src.linkedTaskTruth q = .indeterminate "timestamp_indeterminate" issues) :
    ∃ id ∈ q.ids, src.CompletedUntimed q id := by
  by_cases hne : q.ids = []
  · rw [linkedTaskTruth_of_isEmpty hne] at h
    cases h
  rw [linkedTaskTruth_eq hne] at h
  have hmem : TruthIssue.timestampIndeterminate ∈
      [src.storeIssue q, src.ledgerIssue q].filterMap id := by
    split at h
    · cases h
    split at h
    · cases h
    split at h
    · cases h
    · rename_i issues' hissues
      rw [TaskTruth.indeterminate.injEq] at h
      have hcause := h.1
      unfold indeterminateCause at hcause
      split at hcause
      · exact absurd hcause (by decide)
      · split at hcause
        · rename_i hmem
          exact hmem
        · exact absurd hcause (by decide)
  obtain ⟨issue, hissue, hsome⟩ := List.mem_filterMap.mp hmem
  obtain rfl | rfl := List.mem_pair.mp hissue
  · exact untimed_of_storeIssue hsome
  · exact untimed_of_ledgerIssue hsome

end GoalFlight.Dispatch
