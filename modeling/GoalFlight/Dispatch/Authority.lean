import GoalFlight.Dispatch.TaskTruth

/-!
# Dispatch: what closes queued work

Before a queue envelope is put back or launched, `_entry_completion_authority` asks whether
its work is already done: by its own ledger row, by its own output, or by others who finished
or advanced its tasks.

`authority_closes_on_ground` says what each closing answer rests on.
-/

namespace GoalFlight.Dispatch

open Json GoalFlight.Capacity

/-! ### What is asked -/

/-- The last terminal marker of a dispatch's output. -/
structure TailMarker where
  kind : String
  text : String
deriving DecidableEq

/-- What the answer is read from. -/
structure AuthorityWorld where
  /-- `_find_dispatch_record`; no value where the lookup raises. -/
  findRecord : String → Option (Option LedgerRow)
  /-- The derived rows of the project's task store, or an unreadable store. -/
  store : Option String → Option (List TaskRow)
  /-- `_pass_ledger_records`, or an unreadable ledger. -/
  records : Option (List LedgerRow)
  /-- `_normalized_project_root` of a path that is given. -/
  normalizedRoot : String → String
  /-- `_final_terminal_marker`, of the envelope's output. -/
  tailMarker : QueueEntry → Option TailMarker
  /-- `_extract_marker_artifact_paths`. -/
  declared : String → List String
  /-- `_direct_open_nonempty`, of a path under the project. -/
  opens : Option String → String → Bool

/-- The answer of `_entry_completion_authority`. -/
structure CompletionDecision where
  state : String
  reason : String
  marker : Option TailMarker := none
  source : String
  resolutionSource : Option String := none
  salvageRequired : Bool := false
  indeterminateCause : Option String := none
  indeterminateSources : List String := []
  boundedDeferral : Bool := false
  deferralCount : Option ℕ := none
  deferralLimit : Option ℕ := none
deriving DecidableEq

/-- `MAX_COMPLETION_AUTHORITY_DEFERRALS`. -/
def maxCompletionAuthorityDeferrals : ℕ := 1

/-- `COMPLETION_AUTHORITY_TIMESTAMP_UNREADABLE`. -/
def completionAuthorityTimestampUnreadable : String := "completion_authority_timestamp_unreadable"

/-- `BLOCKED_COMPLETION_AUTHORITY_STATE`. -/
def blockedCompletionAuthorityState : String := "blocked_completion_authority"

/-- `SUCCESS_TERMINAL_MARKERS`. -/
def successTerminalMarkers : List String := ["COMPLETE", "READY", "RESULT"]

/-- `_completion_authority_deferral_count`. -/
def completionAuthorityDeferralCount (e : QueueEntry) : ℕ :=
  let count := e.completionAuthorityDeferralCount
  if count.truthy then (count.int?.getD 0).toNat else 0

/-! ### The envelope's own row -/

/-- What `_completion_authority_token_bind` answers: `match`, `mismatch` or `unknown`. -/
inductive TokenBind
  | same
  | other
  | unknown
deriving DecidableEq

/-- Two ids bind where both are given. -/
def bindIds (left right : Option String) : Option TokenBind :=
  match given left, given right with
  | some a, some b => some (if a = b then .same else .other)
  | _, _ => none

/-- `_completion_authority_token_bind`: by the launch tokens, else by the restore ids. -/
def completionAuthorityTokenBind (e : QueueEntry) (r : LedgerRow) : TokenBind :=
  ((bindIds e.queueLaunchToken r.queueLaunchToken).or
    (bindIds e.restoreTxnId r.restoreTxnId)).getD .unknown

/-- `str(existing.get("state") or existing.get("terminal_state") or "")`. -/
def LedgerRow.existingState (r : LedgerRow) : String :=
  if r.state ≠ "" then r.state else r.terminalState.getD ""

/-- The states of a row that close the envelope. -/
def closingRecordStates : List String :=
  ["complete", "superseded", "worker_dead"] ++ successTerminalRecordStates

/-- The answer of the envelope's own row: it was replaced by a redispatch, or (leg 0) it is
terminal. -/
def rowAuthority (e : QueueEntry) (r : LedgerRow) : Option CompletionDecision :=
  if r.supersededBy.truthy then
    some { state := "superseded", reason := "redispatch_superseded", source := "ledger" }
  else if e.dispatchId ≠ "" ∧ r.isTerminal ∧ r.existingState ∈ closingRecordStates then
    match completionAuthorityTokenBind e r with
    | .unknown =>
      some {
        state := "deferred"
        reason := "completion_authority_token_indeterminate"
        source := "ledger"
        indeterminateCause := some "queue_launch_token_unbound"
        indeterminateSources := ["queue_launch_token"] }
    | .same =>
      some { state := r.existingState, reason := "existing_terminal_record", source := "ledger" }
    -- An id is free again once terminal: an earlier attempt's row says nothing of this one.
    | .other => none
  else none

/-! ### The envelope's own output -/

/-- `_project_root_for_entry`; without a root it is the working directory. -/
def projectRootForEntry (e : QueueEntry) (row : Option LedgerRow) : Option String :=
  [e.projectRoot, e.requestCwd, row.bind LedgerRow.projectRoot].findSome? given

/-- `_scan_entry_completion_marker`. -/
def AuthorityWorld.scanMarker (w : AuthorityWorld) (e : QueueEntry) : Option TailMarker :=
  if e.dispatchId = "" then none else w.tailMarker e

/-- `_marker_declared_artifacts_ok`. -/
def AuthorityWorld.declaredArtifactsOk (w : AuthorityWorld) (marker : TailMarker)
    (root : Option String) : Bool :=
  marker.kind ∈ successTerminalMarkers ∧ ∀ path ∈ w.declared marker.text, w.opens root path = true

/-- The answer of the envelope's own output (legs 1 and 2). -/
def AuthorityWorld.outputAuthority (w : AuthorityWorld) (e : QueueEntry)
    (row : Option LedgerRow) : Option CompletionDecision :=
  match w.scanMarker e with
  | none => none
  | some marker =>
    if w.declaredArtifactsOk marker (projectRootForEntry e row) then
      some {
        state := "complete"
        reason := "marker:" ++ marker.kind ++ ":final_reconciliation"
        marker := some marker
        source := "output" }
    else none

/-! ### The linked tasks -/

/-- The envelope's tasks, asked for. -/
def taskQuery (e : QueueEntry) (row : Option LedgerRow) (mode : ScanMode) : TaskQuery where
  ids := taskIdsOf (e.taskIds ++ (row.map LedgerRow.taskIds).getD [])
  nodup := nodup_taskIdsOf _
  dispatchId := if e.dispatchId ≠ "" then e.dispatchId else (row.map LedgerRow.dispatchId).getD ""
  projectRoot := ownerRoot [e.projectRoot, row.bind LedgerRow.projectRoot, e.requestCwd]
  created := e.createdAt.seconds?
  exemptIds := e.exemptIds
  mode := mode

/-- The sources the envelope's tasks are looked up in. -/
def AuthorityWorld.sources (w : AuthorityWorld) (e : QueueEntry) (row : Option LedgerRow) :
    TaskSources where
  store := w.store (projectRootForEntry e row)
  records := w.records
  normalizedRoot := w.normalizedRoot

/-- The answer where the tasks leave the question open. -/
def deferredAuthority (e : QueueEntry) (cause : String) (issues : List TruthIssue) :
    Option CompletionDecision :=
  if cause = "timestamp_equal" ∧
      maxCompletionAuthorityDeferrals ≤ completionAuthorityDeferralCount e then
    -- Equal times stay equal: after one deferral the envelope is launched.
    none
  else if cause = "timestamp_indeterminate" then
    some {
      state :=
        if e.completionAuthorityReason = some completionAuthorityTimestampUnreadable then
          blockedCompletionAuthorityState
        else "deferred"
      reason := completionAuthorityTimestampUnreadable
      source := "authority"
      indeterminateCause := some cause
      indeterminateSources := issues.map TruthIssue.text }
  else
    some {
      state := "deferred"
      reason :=
        if cause = "authority_unavailable" then "completion_authority_unavailable"
        else "completion_authority_indeterminate"
      source := "authority"
      indeterminateCause := some cause
      indeterminateSources := issues.map TruthIssue.text
      boundedDeferral := cause = "timestamp_equal"
      deferralCount :=
        if cause = "timestamp_equal" then some (completionAuthorityDeferralCount e) else none
      deferralLimit :=
        if cause = "timestamp_equal" then some maxCompletionAuthorityDeferrals else none }

/-- The answer of the linked tasks (leg 3). -/
def AuthorityWorld.taskAuthority (w : AuthorityWorld) (e : QueueEntry)
    (row : Option LedgerRow) (mode : ScanMode) : Option CompletionDecision :=
  match (w.sources e row).linkedTaskTruth (taskQuery e row mode) with
  | .allComplete =>
    some {
      state := "superseded"
      reason := "task_store:all_complete"
      source := "task_store"
      resolutionSource := some "task_store" }
  | .someAdvanced =>
    some {
      state := "worker_dead"
      reason := "partial_task_supersession"
      source := "task_store"
      salvageRequired := true }
  | .indeterminate cause issues => deferredAuthority e cause issues
  | .unlinked | .none => none

/-! ### The ladder -/

/-- The row the ladder goes by: the one the caller has, or the one that is looked up.  No
value where the lookup raises. -/
def AuthorityWorld.recordOf (w : AuthorityWorld) (e : QueueEntry) (record : Option LedgerRow) :
    Option (Option LedgerRow) :=
  match record with
  | some r => some (some r)
  | none => if e.dispatchId = "" then some none else w.findRecord e.dispatchId

/-- The answer of the legs before the linked tasks. -/
def AuthorityWorld.ownAuthority (w : AuthorityWorld) (e : QueueEntry)
    (row : Option LedgerRow) : Option CompletionDecision :=
  (row.bind (rowAuthority e)).or (w.outputAuthority e row)

/-- `_entry_completion_authority`. -/
def AuthorityWorld.entryCompletionAuthority (w : AuthorityWorld) (e : QueueEntry)
    (record : Option LedgerRow) (mode : ScanMode) : Option CompletionDecision :=
  match w.recordOf e record with
  | none =>
    some {
      state := "deferred"
      reason := "completion_authority_unavailable"
      source := "authority"
      indeterminateCause := some "authority_unavailable"
      indeterminateSources := ["ledger_record_unavailable"] }
  | some row => (w.ownAuthority e row).or (w.taskAuthority e row mode)

/-! ### What each leg rests on -/

/-- What a closing answer rests on. -/
inductive ClosingGround (w : AuthorityWorld) (e : QueueEntry) (row : Option LedgerRow)
    (mode : ScanMode) : (state : String) → Prop
  /-- The envelope's row was superseded by a redispatch. -/
  | redispatched (r : LedgerRow) (hrow : row = some r) (hreplaced : r.supersededBy.truthy = true) :
      ClosingGround w e row mode "superseded"
  /-- The envelope's row is terminal and bound to it by token or restore id. -/
  | ownRow (r : LedgerRow) (hrow : row = some r) (hterminal : r.isTerminal = true)
      (hbound : completionAuthorityTokenBind e r = .same)
      (hstate : r.existingState ∈ closingRecordStates) :
      ClosingGround w e row mode r.existingState
  /-- The envelope's output ends in a success marker, and every artifact it declares opens. -/
  | ownOutput (marker : TailMarker) (hmarker : w.scanMarker e = some marker)
      (hkind : marker.kind ∈ successTerminalMarkers)
      (hopens : ∀ path ∈ w.declared marker.text,
        w.opens (projectRootForEntry e row) path = true) :
      ClosingGround w e row mode "complete"
  /-- Every linked task was completed strictly later, in the store alone or in the ledger
  alone. -/
  | completed (hlinked : (taskQuery e row mode).ids ≠ [])
      (hall : (∀ id ∈ (taskQuery e row mode).ids,
          (w.sources e row).CompletedInStore (taskQuery e row mode) id) ∨
        ∀ id ∈ (taskQuery e row mode).ids,
          (w.sources e row).CompletedInLedger (taskQuery e row mode) id) :
      ClosingGround w e row mode "superseded"
  /-- Some linked task was completed strictly later, or advanced. -/
  | advanced (id : String) (hid : id ∈ (taskQuery e row mode).ids)
      (hadvanced : (w.sources e row).CompletedInStore (taskQuery e row mode) id ∨
        (w.sources e row).CompletedInLedger (taskQuery e row mode) id ∨
        (w.sources e row).AdvancedInLedger (taskQuery e row mode) id) :
      ClosingGround w e row mode "worker_dead"
  /-- Some linked task was completed at a time that cannot be compared, and the envelope was
  parked for that before. -/
  | untimed (id : String) (hid : id ∈ (taskQuery e row mode).ids)
      (huntimed : (w.sources e row).CompletedUntimed (taskQuery e row mode) id)
      (hparked : e.completionAuthorityReason = some completionAuthorityTimestampUnreadable) :
      ClosingGround w e row mode blockedCompletionAuthorityState

variable {w : AuthorityWorld} {e : QueueEntry} {row : Option LedgerRow} {mode : ScanMode}
  {d : CompletionDecision}

theorem rowAuthority_ground {r : LedgerRow} (h : rowAuthority e r = some d)
    (hcloses : d.state ≠ "deferred") : ClosingGround w e (some r) mode d.state := by
  unfold rowAuthority at h
  split at h
  · rename_i hreplaced
    cases h
    exact .redispatched r rfl hreplaced
  split at h
  · rename_i hclosing
    obtain ⟨-, hterminal, hstate⟩ := hclosing
    split at h
    · cases h
      exact absurd rfl hcloses
    · rename_i hbound
      cases h
      exact .ownRow r rfl hterminal hbound hstate
    · cases h
  · cases h

theorem outputAuthority_ground (h : w.outputAuthority e row = some d) :
    ClosingGround w e row mode d.state := by
  unfold AuthorityWorld.outputAuthority at h
  split at h
  · cases h
  rename_i marker hmarker
  split at h
  · rename_i hok
    obtain ⟨hkind, hopens⟩ := of_decide_eq_true hok
    cases h
    exact .ownOutput marker hmarker hkind hopens
  · cases h

theorem deferredAuthority_closes {cause : String} {issues : List TruthIssue}
    (h : deferredAuthority e cause issues = some d) (hcloses : d.state ≠ "deferred") :
    cause = "timestamp_indeterminate" ∧ d.state = blockedCompletionAuthorityState ∧
      e.completionAuthorityReason = some completionAuthorityTimestampUnreadable := by
  unfold deferredAuthority at h
  split at h
  · cases h
  split at h
  · rename_i hcause
    cases h
    dsimp only at hcloses ⊢
    split at hcloses
    · rename_i hparked
      exact ⟨hcause, if_pos hparked, hparked⟩
    · exact absurd rfl hcloses
  · cases h
    exact absurd rfl hcloses

theorem taskAuthority_ground (h : w.taskAuthority e row mode = some d)
    (hcloses : d.state ≠ "deferred") : ClosingGround w e row mode d.state := by
  unfold AuthorityWorld.taskAuthority at h
  split at h
  · rename_i htruth
    obtain ⟨hlinked, hall⟩ := TaskSources.linkedTaskTruth_eq_allComplete_iff.mp htruth
    cases h
    refine .completed hlinked (hall.imp ?_ ?_)
    · intro hstore id hid
      exact TaskSources.storeComplete_iff.mp (hstore id hid)
    · intro hledger id hid
      exact TaskSources.ledgerComplete_iff.mp (hledger id hid)
  · rename_i htruth
    obtain ⟨-, id, hid, hsome⟩ := TaskSources.linkedTaskTruth_eq_someAdvanced_iff.mp htruth
    cases h
    refine .advanced id hid (hsome.imp TaskSources.storeComplete_iff.mp ?_)
    exact TaskSources.completed_or_advanced
  · rename_i cause issues htruth
    obtain ⟨rfl, hstate, hparked⟩ := deferredAuthority_closes h hcloses
    obtain ⟨id, hid, huntimed⟩ := TaskSources.untimed_of_cause htruth
    rw [hstate]
    exact .untimed id hid huntimed hparked
  · cases h
  · cases h

/-! ### What the tasks decide -/

/-- Tasks that are all completed, some only in the store and some only in the ledger, count
as partly done. -/
theorem TaskSources.linkedTaskTruth_of_mix {src : TaskSources} {q : TaskQuery}
    (hlinked : q.ids ≠ [])
    (hall : ∀ id ∈ q.ids, src.CompletedInStore q id ∨ src.CompletedInLedger q id)
    (hstore : ¬ ∀ id ∈ q.ids, src.CompletedInStore q id)
    (hledger : ¬ ∀ id ∈ q.ids, src.CompletedInLedger q id) :
    src.linkedTaskTruth q = .someAdvanced := by
  rw [linkedTaskTruth_eq_someAdvanced_iff, Ne, linkedTaskTruth_eq_allComplete_iff]
  constructor
  · simp only [storeComplete_iff, ledgerComplete_iff]
    rintro ⟨-, h | h⟩
    · exact hstore h
    · exact hledger h
  · obtain ⟨id, hid⟩ := List.exists_mem_of_ne_nil q.ids hlinked
    refine ⟨id, hid, (hall id hid).imp storeComplete_iff.mpr ?_⟩
    intro h
    exact ledgerAdvanced_of_ledgerComplete (ledgerComplete_iff.mpr h)

theorem TaskSources.linkedTaskTruth_of_unreadable {src : TaskSources} {q : TaskQuery}
    (hlinked : q.ids ≠ [])
    (hunreadable : src.store = none ∨ src.readableRecords = none)
    (hnothing : ∀ id ∈ q.ids, ¬ (src.CompletedInStore q id ∨ src.CompletedInLedger q id ∨
      src.AdvancedInLedger q id)) :
    ∃ issues, src.linkedTaskTruth q = .indeterminate "authority_unavailable" issues := by
  have hsome : ¬ (0 < q.count (src.storeComplete q) ∨ 0 < q.count (src.ledgerAdvanced q)) := by
    rw [q.count_pos_iff, q.count_pos_iff]
    rintro (⟨id, hid, h⟩ | ⟨id, hid, h⟩)
    · exact hnothing id hid (.inl (storeComplete_iff.mp h))
    · exact hnothing id hid (.inr (completed_or_advanced h))
  have hall : ¬ (q.count (src.storeComplete q) = q.ids.length ∨
      q.count (src.ledgerComplete q) = q.ids.length) := by
    have hpos : 0 < q.ids.length := List.length_pos_iff.mpr hlinked
    have hle : q.count (src.ledgerComplete q) ≤ q.count (src.ledgerAdvanced q) :=
      q.count_mono fun _ => ledgerAdvanced_of_ledgerComplete
    omega
  rw [linkedTaskTruth_eq hlinked, if_neg hall, if_neg hsome]
  obtain ⟨issue, hmem, hissue⟩ : ∃ issue, some issue ∈ [src.storeIssue q, src.ledgerIssue q] ∧
      issue.isUnavailable = true := by
    obtain hstore | hledger := hunreadable
    · refine ⟨.taskStoreUnavailable, ?_, rfl⟩
      simp [TaskSources.storeIssue, hstore]
    · refine ⟨.ledgerUnavailable, ?_, rfl⟩
      simp [TaskSources.ledgerIssue, hledger]
  have hmem' : issue ∈ [src.storeIssue q, src.ledgerIssue q].filterMap id :=
    List.mem_filterMap.mpr ⟨some issue, hmem, rfl⟩
  split
  · rename_i hempty
    rw [hempty] at hmem'
    cases hmem'
  · rename_i issues _
    refine ⟨[src.storeIssue q, src.ledgerIssue q].filterMap id, ?_⟩
    rw [indeterminateCause, if_pos (List.any_eq_true.mpr ⟨issue, hmem', hissue⟩)]

theorem entryCompletionAuthority_of_own {record : Option LedgerRow}
    (hrow : w.recordOf e record = some row) (hown : w.ownAuthority e row = none) :
    w.entryCompletionAuthority e record mode = w.taskAuthority e row mode := by
  unfold AuthorityWorld.entryCompletionAuthority
  rw [hrow]
  dsimp only
  rw [hown]
  rfl

/-- **Queued work is closed on a ground.**  An answer that closes an envelope rests on one of
the grounds.  Where the envelope's own row and output decide nothing: tasks that are all
completed later in one of the two places supersede it, a mix of the two closes it as partly
done, and sources that do not read and show nothing leave it deferred. -/
theorem authority_closes_on_ground (w : AuthorityWorld) (e : QueueEntry)
    (record : Option LedgerRow) (mode : ScanMode) :
    (∀ d, w.entryCompletionAuthority e record mode = some d → d.state ≠ "deferred" →
      ∃ row, w.recordOf e record = some row ∧ ClosingGround w e row mode d.state) ∧
    ∀ row, w.recordOf e record = some row → w.ownAuthority e row = none →
      let src := w.sources e row
      let q := taskQuery e row mode
      q.ids ≠ [] →
      (((∀ id ∈ q.ids, src.CompletedInStore q id) ∨ (∀ id ∈ q.ids, src.CompletedInLedger q id) →
        ∃ d, w.entryCompletionAuthority e record mode = some d ∧ d.state = "superseded") ∧
      ((∀ id ∈ q.ids, src.CompletedInStore q id ∨ src.CompletedInLedger q id) →
          (¬ ∀ id ∈ q.ids, src.CompletedInStore q id) →
          (¬ ∀ id ∈ q.ids, src.CompletedInLedger q id) →
        ∃ d, w.entryCompletionAuthority e record mode = some d ∧ d.state = "worker_dead" ∧
          d.reason = "partial_task_supersession") ∧
      (src.store = none ∨ src.readableRecords = none →
          (∀ id ∈ q.ids, ¬ (src.CompletedInStore q id ∨ src.CompletedInLedger q id ∨
            src.AdvancedInLedger q id)) →
        ∃ d, w.entryCompletionAuthority e record mode = some d ∧ d.state = "deferred" ∧
          d.reason = "completion_authority_unavailable")) := by
  refine ⟨?_, ?_⟩
  · intro d h hcloses
    unfold AuthorityWorld.entryCompletionAuthority AuthorityWorld.ownAuthority at h
    split at h
    · cases h
      exact absurd rfl hcloses
    rename_i row hrow
    refine ⟨row, hrow, ?_⟩
    rw [Option.or_eq_some_iff, Option.or_eq_some_iff] at h
    obtain (hrowLeg | ⟨-, houtput⟩) | ⟨-, htask⟩ := h
    · obtain ⟨r, rfl, hr⟩ := Option.bind_eq_some_iff.mp hrowLeg
      exact rowAuthority_ground hr hcloses
    · exact outputAuthority_ground houtput
    · exact taskAuthority_ground htask hcloses
  · intro row hrow hown src q hlinked
    rw [entryCompletionAuthority_of_own hrow hown]
    unfold AuthorityWorld.taskAuthority
    refine ⟨?_, ?_, ?_⟩
    · intro hall
      have htruth : src.linkedTaskTruth q = .allComplete := by
        rw [TaskSources.linkedTaskTruth_eq_allComplete_iff]
        simp only [TaskSources.storeComplete_iff, TaskSources.ledgerComplete_iff]
        exact ⟨hlinked, hall⟩
      rw [htruth]
      exact ⟨_, rfl, rfl⟩
    · intro hall hstore hledger
      rw [TaskSources.linkedTaskTruth_of_mix hlinked hall hstore hledger]
      exact ⟨_, rfl, rfl, rfl⟩
    · intro hunreadable hnothing
      obtain ⟨issues, htruth⟩ :=
        TaskSources.linkedTaskTruth_of_unreadable hlinked hunreadable hnothing
      rw [htruth]
      exact ⟨_, rfl, rfl, rfl⟩

/-- A world without output and without a row for the envelope. -/
def plainWorld (store : Option (List TaskRow)) (records : Option (List LedgerRow)) :
    AuthorityWorld where
  findRecord _ := some none
  store _ := store
  records := records
  normalizedRoot := id
  tailMarker _ := none
  declared _ := []
  opens _ _ := false

/-- An envelope queued at time 100. -/
def followUp (taskIds : List String) : QueueEntry :=
  { dispatchId := "d2", projectRoot := some "/p", taskIds := taskIds, createdAt := .at 100 }

/-- The row another dispatch of the project left at a time. -/
def otherRow (state : String) (taskIds : List String) (endedAt : Seconds) : LedgerRow :=
  { dispatchId := "d1", projectRoot := some "/p", state := state, taskIds := taskIds,
    endedAt := .at endedAt }

/-- A successful attempt that ended later supersedes the envelope; tasks nobody can read of
leave it deferred. -/
theorem authority_closes_on_ground_later :
    (∃ row, (plainWorld (some []) (some [otherRow "complete" ["t1"] 150])).recordOf
        (followUp ["t1"]) none = some row ∧
      ClosingGround (plainWorld (some []) (some [otherRow "complete" ["t1"] 150]))
        (followUp ["t1"]) row {} "superseded") ∧
    ∃ d, (plainWorld none none).entryCompletionAuthority (followUp ["t1"]) none {} = some d ∧
      d.state = "deferred" ∧ d.reason = "completion_authority_unavailable" := by
  refine ⟨?_, ?_⟩
  · exact (authority_closes_on_ground _ (followUp ["t1"]) none {}).1
      { state := "superseded", reason := "task_store:all_complete", source := "task_store",
        resolutionSource := some "task_store" } (by decide +kernel) (by decide)
  · refine ((authority_closes_on_ground (plainWorld none none) (followUp ["t1"]) none {}).2 none
      rfl rfl (by decide +kernel)).2.2 (.inl rfl) ?_
    rintro id - (⟨rows, row, t, t₀, hstore, -⟩ | ⟨records, hrecords, -⟩ | ⟨records, hrecords, -⟩)
    · cases hstore
    · cases hrecords
    · cases hrecords

/-- A death that ended before the envelope was queued closes it; two tasks completed later,
one in the store and one in the ledger, do not supersede it; a store that does not read
leaves it to the ledger to supersede it; and a completion without a time closes an envelope
that was parked for that before. -/
theorem authority_closes_otherwise :
    ((plainWorld (some []) (some [otherRow "worker_dead" ["t1"] 50])).entryCompletionAuthority
        (followUp ["t1"]) none {}).map CompletionDecision.state = some "worker_dead" ∧
    ((plainWorld (some [{ id := "t1", done := .bool true, doneAt := .at 150 }])
        (some [otherRow "complete" ["t2"] 150])).entryCompletionAuthority
        (followUp ["t1", "t2"]) none {}).map CompletionDecision.state = some "worker_dead" ∧
    ((plainWorld none (some [otherRow "complete" ["t1"] 150])).entryCompletionAuthority
        (followUp ["t1"]) none {}).map CompletionDecision.state = some "superseded" ∧
    ((plainWorld (some [{ id := "t1", done := .bool true }]) (some [])).entryCompletionAuthority
        { followUp ["t1"] with
          completionAuthorityReason := some "completion_authority_timestamp_unreadable" }
        none {}).map CompletionDecision.state = some "blocked_completion_authority" := by
  decide +kernel

end GoalFlight.Dispatch
