import GoalFlight.Ledger.Reconcile
import GoalFlight.Library.JsonMapping

/-!
# Ledger: the rows that are written

`cmd_record` builds a row from its arguments and takes over chosen fields of the row that is
there; `cmd_finish` and `terminal_record_projection` put the verdict of the journal on a row;
`_stamp_nonterminal_fields` adds fields to a row that is not terminal.  All of them write with
`write_record`, which keeps the time of the first end.
-/

namespace GoalFlight.Ledger

open Json Json.Value GoalFlight.Dispatch Relational

/-! ### Files -/

/-- The journal, the rows of `runs.d`, and the archived rows by month. -/
structure Store where
  journal : Journal
  runs : KeyedTable LedgerRow.dispatchId
  archive : KeyedTable fun e : String × LedgerRow => (e.1, e.2.dispatchId)

/-- The row of a dispatch in `runs.d`. -/
def Store.row (s : Store) (dispatchId : String) : Option LedgerRow := s.runs.get? dispatchId

/-- The row as `write_record` writes it. -/
def writtenRow (w : World) (old : Option LedgerRow) (r : LedgerRow) : LedgerRow :=
  { r.keepingEnd old with updatedAt := w.clock }

/-- `write_record`. -/
def Store.writeRecord (w : World) (s : Store) (r : LedgerRow) : Store :=
  { s with runs := s.runs.set (writtenRow w (s.row r.dispatchId) r) }

/-- A field that no reader here looks at, set. -/
def putField (key : String) (v : Value) (r : LedgerRow) : LedgerRow :=
  { r with others := (key, v) :: r.others.filter fun field => field.1 ≠ key }

/-- Such a field, removed. -/
def popField (key : String) (r : LedgerRow) : LedgerRow :=
  { r with others := r.others.filter fun field => field.1 ≠ key }

/-! ### Recording -/

/-- The arguments of `cmd_record`. -/
structure RecordArgs where
  dispatchId : String
  state : String
  transport : String := ""
  projectRoot : Option String := none
  controllerPid : Value := .null
  controllerSessionId : Option String := none
  controllerLabel : Option String := none
  claimantPid : Value := .null
  workerPid : Value := .null
  leaseId : Option String := none
  remoteLeaseId : Option String := none
  stdoutPath : Value := .null
  stderrPath : Value := .null
  statusPath : Value := .null
  taskIds : List String := []
  dispatchArgv : List String := []
  requestEnvelope : Option QueueEntry := none
  queueLaunchToken : Option String := none
  effectiveAccount : Option String := none
  engine : Option String := none
  /-- The fields no reader here looks at. -/
  others : List (String × Value) := []

/-- `process_identity` of a pid field. -/
def identityOf (h : Host) (pidValue : Value) : Value :=
  match pidValue.int? with
  | none => .null
  | some pid =>
    match h.processIdentity pid with
    | .running identity => identity
    | _ => .null

namespace RecordArgs

/-- The long-lived controller is named: a session and its pid. -/
def owned (a : RecordArgs) : Bool :=
  (Capacity.given a.controllerSessionId).isSome && a.controllerPid ≠ .null

/-- `owner_controller_label`. -/
def ownerControllerLabel (a : RecordArgs) : Option String :=
  if a.owned then Capacity.given a.controllerLabel else none

/-- The row that `cmd_record` builds. -/
def row (a : RecordArgs) (w : World) : LedgerRow where
  dispatchId := a.dispatchId
  state := a.state
  terminalState := some (Capacity.terminalStateFor a.state none)
  taskIds := a.taskIds
  transport := a.transport
  hostname := some w.hostname
  projectRoot := a.projectRoot
  controllerLabel := a.ownerControllerLabel.map fun label => String.ofList (label.toList.take 64)
  controllerSessionId := if a.owned then a.controllerSessionId else none
  controllerPid := if a.owned then a.controllerPid else .null
  controllerIdentity := identityOf w.host (if a.owned then a.controllerPid else .null)
  leaseId := a.leaseId
  remoteLeaseId := (Capacity.given a.remoteLeaseId).or a.leaseId
  startedAt := w.clock
  statusPath := a.statusPath
  stdoutPath := a.stdoutPath
  stderrPath := a.stderrPath
  claimantPid := a.claimantPid
  claimantIdentity := identityOf w.host a.claimantPid
  workerPid := a.workerPid
  workerIdentity := identityOf w.host a.workerPid
  workerPgid := (identityOf w.host a.workerPid).get "pgid"
  queueLaunchToken := Capacity.given a.queueLaunchToken
  dispatchArgv := a.dispatchArgv
  requestEnvelope := a.requestEnvelope
  others := a.others

/-- The attempt that `cmd_record` asks for. -/
def request (a : RecordArgs) (commits : CommitEnv) (w : World) : AttemptRequest where
  dispatchId := a.dispatchId
  attemptId := none
  launchToken := a.queueLaunchToken
  startDeadlineAt := none
  deferStartDeadline := a.state = "waiting_capacity"
  ownerControllerLabel := a.ownerControllerLabel
  ownerSessionDigest :=
    if a.ownerControllerLabel.isSome then a.controllerSessionId.map commits.sessionDigest else none
  effectiveAccount := a.effectiveAccount
  engine := a.engine
  freshAttemptId := w.draws.freshAttemptId
  freshToken := w.draws.freshToken
  now := w.draws.now
  defaultDeadline := w.draws.defaultDeadline

end RecordArgs

/-- The row with the identity of its attempt. -/
def withLaunch (identity : AttemptIdentity) (r : LedgerRow) : LedgerRow :=
  putField "launch_epoch" (.int identity.launchEpoch)
    (putField "launch_token" (.str identity.launchToken)
      (putField "attempt_id" (.str identity.attemptId) r))

/-- The fields that a row takes over from the one that is there, where it has none. -/
def inheritedFields : List String :=
  ["worker_cwd", "worktree_id", "worktree_seat", "worktree_path", "worktree_base",
    "worktree_head", "worktree_branch", "worktree_keep_ref", "worktree_quarantine_ref",
    "worktree_reclaimed_dispatch_id", "engine_session_id", "codex_session_id", "codex_home",
    "codex_home_owner_dispatch_id", "parent_dispatch_id", "model", "reasoning_effort",
    "superseded_at", "supersession_actor", "supersession_reason", "wip_ref"]

/-- A field that is not there is taken over. -/
def inheritField (old : LedgerRow) (r : LedgerRow) (key : String) : LedgerRow :=
  if (r.others.lookup key).isNone ∧ (otherField old key).truthy = true then
    putField key (otherField old key) r
  else r

/-- The owner of a row: a controller that is given, or the one that is there. -/
def inheritController (old r : LedgerRow) : LedgerRow :=
  if r.controllerSessionId = none ∧ (Capacity.given old.controllerSessionId).isSome ∧
      old.controllerPid ≠ .null then
    { r with
      controllerSessionId := old.controllerSessionId
      controllerPid := old.controllerPid
      controllerLabel := old.controllerLabel
      controllerIdentity := old.controllerIdentity }
  else if r.controllerLabel = none ∧ r.controllerSessionId = old.controllerSessionId ∧
      r.controllerPid = old.controllerPid then
    { r with controllerLabel := old.controllerLabel }
  else r

/-- What the row of `cmd_record` takes over from the row that is there. -/
def mergedRow (old : LedgerRow) (r : LedgerRow) : LedgerRow :=
  let owned := inheritController old r
  inheritedFields.foldl (inheritField old)
    { owned with
      startedAt := if old.startedAt.given then old.startedAt else owned.startedAt
      requestEnvelope := owned.requestEnvelope.or old.requestEnvelope
      dispatchArgv := if owned.dispatchArgv = [] then old.dispatchArgv else owned.dispatchArgv
      claimantPid :=
        if owned.claimantPid = .null ∧ old.claimantPid.truthy = true then old.claimantPid
        else owned.claimantPid
      claimantIdentity :=
        if owned.claimantPid = .null ∧ old.claimantPid.truthy = true then old.claimantIdentity
        else owned.claimantIdentity
      supersededBy := old.supersededBy.orElse owned.supersededBy }

/-! ### Ending -/

/-- The arguments of `cmd_finish`. -/
structure FinishArgs where
  dispatchId : String
  state : String
  reason : Value := .null
  terminalState : Option String := none
  workerStillAlive : Option Value := none
  headline : Option String := none
  prelaunchFailure : Option Bool := none

/-- What `cmd_finish` commits. -/
def FinishArgs.ending (a : FinishArgs) : Ending where
  state := a.state
  terminalState :=
    (Capacity.given a.terminalState).getD (Capacity.terminalStateFor a.state (textOf a.reason))
  reason := a.reason
  workerStillAlive := a.workerStillAlive.getD .null
  headline := a.headline
  prelaunchFailure := a.prelaunchFailure

/-- The observation of a verdict. -/
def observationOf (v : TerminalCommit) : Value := (loads v.observation.toList).getD .null

/-- `str(observation.get("state") or terminal_state)`. -/
def winnerState (v : TerminalCommit) : String :=
  (Capacity.given (textOf ((observationOf v).get "state"))).getD v.terminalState

/-- The time of the first end, or that of the verdict. -/
def firstEnd (commits : CommitEnv) (v : TerminalCommit) (r : LedgerRow) : Stamp :=
  if r.endedAt.given then r.endedAt else commits.stampOf v.terminalAt

/-- The row with the attempt and the event of a verdict. -/
def withVerdict (v : TerminalCommit) (r : LedgerRow) : LedgerRow :=
  putField "transition_id" (.str v.transitionId)
    (putField "attempt_id" (.str v.attemptId) { r with terminalEventUuid := some v.eventUuid })

/-- The fields of a limit that an outcome reports. -/
def limitFields : List String := ["limit_kind", "limit_signature", "reset_at", "retry_after"]

/-- The row with the cause that an outcome gives. -/
def withOutcomeCause (outcome : Value) (r : LedgerRow) : LedgerRow :=
  { r with
    error := (outcome.get "error").orElse r.error
    reason := (outcome.get "reason").orElse r.reason }

/-- The row with `prelaunch_failure`, where the observation has it. -/
def withPrelaunchFailure (observation : Value) (r : LedgerRow) : LedgerRow :=
  match observation.get "prelaunch_failure" with
  | .null => r
  | failed => putField "prelaunch_failure" (.bool failed.truthy) r

/-- The row with the headline of the observation. -/
def withHeadline (observation : Value) (r : LedgerRow) : LedgerRow :=
  match Capacity.given ((textOf (observation.get "headline")).map Capacity.strip) with
  | none => r
  | some headline => putField "headline" (.str headline) r

/-- The row with the limit that a cause reports. -/
def withLimit (cause : Value) (r : LedgerRow) : LedgerRow :=
  if (cause.get "limit_kind").truthy then
    limitFields.foldl (fun r key => putField key (cause.get key) r) r
  else r

/-- The row with the outcome of a verdict, and what is beside it. -/
def withOutcome (v : TerminalCommit) (r : LedgerRow) : LedgerRow :=
  let observation := observationOf v
  let outcome := observation.get "outcome"
  withLimit ((outcome.get "error").orElse (outcome.get "reason"))
    (withHeadline observation (withPrelaunchFailure observation (withOutcomeCause outcome r)))

/-- The row that `cmd_finish` writes. -/
def finishedRow (commits : CommitEnv) (a : FinishArgs) (v : TerminalCommit) (r : LedgerRow) :
    LedgerRow :=
  let state :=
    if v.idempotent = true ∧ r.terminalKey = v.terminalState then r.state else winnerState v
  withVerdict v (withOutcome v
    { r with
      state := state
      endedAt := firstEnd commits v r
      terminalState := some v.terminalState
      livenessState := some (terminalLivenessState state)
      workerStillAlive := a.workerStillAlive.getD r.workerStillAlive })

/-- `terminal_record_projection`: an abandoned attempt is withdrawn in the ledger, which keeps
the journal's word for it. -/
def terminalRecordProjection (commits : CommitEnv) (v : TerminalCommit) (reason : Value)
    (r : LedgerRow) : LedgerRow :=
  let observation := observationOf v
  let r := popField "sidecar_hold" (popField "sidecar_hold_reason" r)
  let r :=
    if v.terminalState = "abandoned" then
      putField "journal_terminal_state" (.str "abandoned")
        { r with state := "withdrawn", terminalState := some "withdrawn" }
    else { r with state := winnerState v, terminalState := some v.terminalState }
  withVerdict v
    { r with
      workerStillAlive := .bool false
      livenessState := r.terminalState.map terminalLivenessState
      reason := reason
      endedAt := firstEnd commits v r
      withdrawnBy := (observation.get "withdrawn_by").orElse r.withdrawnBy
      supersededBy := (observation.get "superseded_by").orElse r.supersededBy }

/-! ### Stamping -/

/-- The fields that are stamped. -/
inductive StampFields
  /-- The worker of a running attempt; `opened` of a row that is known not to be terminal. -/
  | worker (a : DispatchAttempt) (identity : Value) (opened : Bool)
  /-- The hold of a terminal status file. -/
  | hold (liveness : Liveness) (reason : IdentityReason)

/-- `current.update(fields)`. -/
def StampFields.update (r : LedgerRow) : StampFields → LedgerRow
  | .worker a identity opened =>
    withLaunch a.identity (withWorker identity (if opened then "running" else r.state) r)
  | .hold liveness reason =>
    putField "sidecar_hold_reason" (.str reason.text)
      (putField "sidecar_hold"
        (.str (match liveness with
          | .live => "live"
          | .dead => "dead"
          | .unknown => "unknown")) r)

/-- `_stamp_nonterminal_fields`, of the row that is there or of the one that is known. -/
def Store.stamp (w : World) (s : Store) (known : LedgerRow) (fields : StampFields) : Store :=
  let current := (s.row known.dispatchId).getD known
  if current.terminalKey ∉ openTerminalKeys then s
  else if fields.update current = current then s
  else s.writeRecord w (fields.update current)

/-! ### What the writers leave of the terminal state -/

/-- The two rows are of one dispatch, and have one terminal state. -/
structure SameEnd (r r' : LedgerRow) : Prop where
  dispatchId : r'.dispatchId = r.dispatchId
  terminalState : r'.terminalState = r.terminalState

theorem SameEnd.refl (r : LedgerRow) : SameEnd r r := ⟨rfl, rfl⟩

theorem SameEnd.trans {r₁ r₂ r₃ : LedgerRow} (h : SameEnd r₁ r₂) (h' : SameEnd r₂ r₃) :
    SameEnd r₁ r₃ :=
  ⟨h'.dispatchId.trans h.dispatchId, h'.terminalState.trans h.terminalState⟩

theorem SameEnd.foldl {α : Type} {f : LedgerRow → α → LedgerRow}
    (hf : ∀ r a, SameEnd r (f r a)) (r : LedgerRow) (xs : List α) :
    SameEnd r (xs.foldl f r) := by
  induction xs generalizing r with
  | nil => exact .refl r
  | cons x rest ih => exact (hf r x).trans (ih (f r x))

theorem sameEnd_writtenRow (w : World) (old : Option LedgerRow) (r : LedgerRow) :
    SameEnd r (writtenRow w old r) := by
  unfold writtenRow LedgerRow.keepingEnd
  split <;> exact ⟨rfl, rfl⟩

theorem sameEnd_update (r : LedgerRow) (fields : StampFields) : SameEnd r (fields.update r) := by
  cases fields with
  | worker a worker opened => exact ⟨rfl, rfl⟩
  | hold liveness reason => exact ⟨rfl, rfl⟩

theorem sameEnd_inheritField (old r : LedgerRow) (key : String) :
    SameEnd r (inheritField old r key) := by
  unfold inheritField
  split <;> exact ⟨rfl, rfl⟩

theorem sameEnd_inheritController (old r : LedgerRow) :
    SameEnd r (inheritController old r) := by
  unfold inheritController
  split
  · exact ⟨rfl, rfl⟩
  · split <;> exact ⟨rfl, rfl⟩

theorem sameEnd_mergedRow (old r : LedgerRow) : SameEnd r (mergedRow old r) := by
  unfold mergedRow
  refine SameEnd.trans ?_ (SameEnd.foldl (sameEnd_inheritField old) _ _)
  exact ⟨(sameEnd_inheritController old r).dispatchId,
    (sameEnd_inheritController old r).terminalState⟩

theorem sameEnd_withPrelaunchFailure (observation : Value) (r : LedgerRow) :
    SameEnd r (withPrelaunchFailure observation r) := by
  unfold withPrelaunchFailure
  split <;> exact ⟨rfl, rfl⟩

theorem sameEnd_withHeadline (observation : Value) (r : LedgerRow) :
    SameEnd r (withHeadline observation r) := by
  unfold withHeadline
  split <;> exact ⟨rfl, rfl⟩

theorem sameEnd_withLimit (cause : Value) (r : LedgerRow) : SameEnd r (withLimit cause r) := by
  unfold withLimit
  split
  · have hput : ∀ (r : LedgerRow) (key : String), SameEnd r (putField key (cause.get key) r) :=
      fun _ _ => ⟨rfl, rfl⟩
    exact SameEnd.foldl hput r limitFields
  · exact .refl r

theorem sameEnd_withOutcome (v : TerminalCommit) (r : LedgerRow) :
    SameEnd r (withOutcome v r) := by
  have hcause : SameEnd r (withOutcomeCause ((observationOf v).get "outcome") r) := ⟨rfl, rfl⟩
  exact hcause.trans ((sameEnd_withPrelaunchFailure _ _).trans
    ((sameEnd_withHeadline _ _).trans (sameEnd_withLimit _ _)))

theorem dispatchId_finishedRow (commits : CommitEnv) (a : FinishArgs) (v : TerminalCommit)
    (r : LedgerRow) : (finishedRow commits a v r).dispatchId = r.dispatchId :=
  (sameEnd_withOutcome v _).dispatchId

theorem terminalState_finishedRow (commits : CommitEnv) (a : FinishArgs) (v : TerminalCommit)
    (r : LedgerRow) : (finishedRow commits a v r).terminalState = some v.terminalState :=
  (sameEnd_withOutcome v _).terminalState

theorem dispatchId_terminalRecordProjection (commits : CommitEnv) (v : TerminalCommit)
    (reason : Value) (r : LedgerRow) :
    (terminalRecordProjection commits v reason r).dispatchId = r.dispatchId := by
  unfold terminalRecordProjection
  simp only
  split <;> rfl

theorem otherField_putField (key other : String) (v : Value) (r : LedgerRow) :
    otherField (putField key v r) other = if other = key then v else otherField r other := by
  unfold otherField putField
  simp only
  rw [List.lookup_cons, lookup_filter_ne]
  by_cases hkey : other = key
  · rw [if_pos hkey, if_pos hkey, hkey, beq_self_eq_true]
    rfl
  · rw [if_neg hkey, if_neg hkey, beq_eq_false_iff_ne.mpr hkey]

/-- The projection of a verdict has its state, or is withdrawn with the journal's word for an
abandoned attempt. -/
theorem terminalState_terminalRecordProjection (commits : CommitEnv) (v : TerminalCommit)
    (reason : Value) (r : LedgerRow) :
    let projected := terminalRecordProjection commits v reason r
    (v.terminalState ≠ "abandoned" ∧ projected.terminalState = some v.terminalState) ∨
      (v.terminalState = "abandoned" ∧ projected.terminalState = some "withdrawn" ∧
        otherField projected "journal_terminal_state" = .str "abandoned") := by
  unfold terminalRecordProjection
  simp only
  split
  · rename_i habandoned
    refine .inr ⟨habandoned, rfl, ?_⟩
    unfold withVerdict
    rw [otherField_putField, if_neg (by decide), otherField_putField, if_neg (by decide)]
    exact (otherField_putField _ _ _ _).trans (if_pos rfl)
  · exact .inl ⟨‹_›, rfl⟩

end GoalFlight.Ledger
