import GoalFlight.Journal.Cursor

/-!
# Dispatch attempts and their terminal verdict

An attempt is prepared, started, marked running and ended.  `commit_terminal` ends it:
in one transaction the attempt gets its terminal columns, the transition is recorded
and the event that announces it goes to the terminal outbox.  `commit_expired_attempt`
is the same commit guarded by the launch deadline, and a supersession replaces the
verdict of an attempt that was only presumed dead.
-/

namespace GoalFlight

open Relational

variable {j j' : Journal}

/-- `AttemptIdentity`. -/
structure AttemptIdentity where
  attemptId : String
  dispatchId : String
  launchToken : String
  launchEpoch : ℕ
  lifecycleState : AttemptState

variable {v : AttemptIdentity}

namespace DispatchAttempt

/-- The identity columns of an attempt. -/
def identity (a : DispatchAttempt) : AttemptIdentity :=
  ⟨a.attemptId, a.dispatchId, a.launchToken, a.launchEpoch, a.lifecycle.state⟩

/-- The columns the constraints mention are the same. -/
def SameKeys (a b : DispatchAttempt) : Prop :=
  a.attemptId = b.attemptId ∧ a.dispatchId = b.dispatchId ∧
    a.terminalTransitionId = b.terminalTransitionId

end DispatchAttempt

/-- `UPDATE dispatch_attempts` over columns no constraint mentions. -/
def AttemptTable.modifyWhere (t : AttemptTable) (p : DispatchAttempt → Prop)
    [DecidablePred p] (f : DispatchAttempt → DispatchAttempt)
    (hf : ∀ a, p a → (f a).SameKeys a) : AttemptTable :=
  t.update (fun a => if p a then f a else a) (by
    have hsame : ∀ a, (if p a then f a else a).SameKeys a := fun a => by
      split
      · exact hf a ‹_›
      · exact ⟨rfl, rfl, rfl⟩
    rintro a b ⟨hkey, hdispatch, htransition⟩
    obtain ⟨ha1, ha2, ha3⟩ := hsame a
    obtain ⟨hb1, hb2, hb3⟩ := hsame b
    refine ⟨?_, ?_, ?_⟩
    · rwa [ha1, hb1]
    · rwa [ha2, hb2]
    · rwa [ha3, hb3])

/-- The attempt of a dispatch. -/
def Journal.attemptForDispatch (j : Journal) (dispatchId : String) :
    Option DispatchAttempt :=
  j.attempts.find? fun a => a.dispatchId = dispatchId

/-! ### Preparing -/

/-- Evidence text that asserts something: present and not blank. -/
def asserted (s : Option String) : Option String :=
  s.filter fun s => ¬ s.toList.all Char.isWhitespace

/-- The arguments of `prepare_attempt`, with the UUIDs and timestamps it draws.  The
owner's session nonce is taken after `controller_session_digest`. -/
structure AttemptRequest where
  dispatchId : String
  attemptId : Option String
  launchToken : Option String
  startDeadlineAt : Option Timestamp
  deferStartDeadline : Bool
  ownerControllerLabel : Option Label
  ownerSessionDigest : Option String
  effectiveAccount : Option String
  engine : Option String
  freshAttemptId : String
  freshToken : String
  now : Timestamp
  defaultDeadline : Timestamp

namespace AttemptRequest

/-- The engine the request asserts. -/
def assertedEngine (q : AttemptRequest) : Option String := asserted q.engine

/-- The account the request asserts: account ids are local to a provider, so none is
asserted without an engine. -/
def assertedAccount (q : AttemptRequest) : Option String :=
  if q.assertedEngine.isSome then asserted q.effectiveAccount else none

/-- Two optional assertions contradict each other. -/
def Contradicts (stored supplied : Option String) : Prop :=
  supplied.isSome ∧ stored.isSome ∧ stored ≠ supplied

instance (stored supplied : Option String) : Decidable (Contradicts stored supplied) := by
  unfold Contradicts
  infer_instance

/-- Why a request for a dispatch that has an attempt is refused, if it is. -/
def refusal (q : AttemptRequest) (a : DispatchAttempt) : Option Abort :=
  if q.attemptId.isSome ∧ q.attemptId ≠ some a.attemptId then
    some (.casMismatch "dispatch already belongs to a different attempt_id")
  else if q.launchToken.isSome ∧ q.launchToken ≠ some a.launchToken then
    some (.casMismatch "dispatch already belongs to a different launch_token")
  else if q.ownerControllerLabel.isSome ∧
      (a.ownerControllerLabel ≠ q.ownerControllerLabel ∨
        a.ownerSessionDigest ≠ q.ownerSessionDigest) then
    some (.casMismatch "dispatch already belongs to a different owner capability")
  else if Contradicts a.effectiveAccount q.assertedAccount then
    some (.casMismatch "dispatch already belongs to a different effective account")
  else if Contradicts a.engine q.assertedEngine then
    some (.casMismatch "dispatch already belongs to a different engine")
  else none

/-- The row of a new attempt. -/
def row (q : AttemptRequest) : DispatchAttempt where
  attemptId := q.attemptId.getD q.freshAttemptId
  dispatchId := q.dispatchId
  lifecycle := .live .prepared
  launchEpoch := 0
  launchToken := q.launchToken.getD q.freshToken
  workerInstance := none
  preparedAt := q.now
  stateUpdatedAt := q.now
  startDeadlineAt :=
    if q.deferStartDeadline then none
    else some ((q.startDeadlineAt.filter (· ≠ "")).getD q.defaultDeadline)
  ownerControllerLabel := q.ownerControllerLabel
  ownerSessionDigest := q.ownerSessionDigest
  effectiveAccount := q.assertedAccount
  engine := q.assertedEngine

end AttemptRequest

/-- `prepare_attempt`. -/
def Journal.prepareAttempt (j : Journal) (q : AttemptRequest) : Tx AttemptIdentity :=
  if q.deferStartDeadline ∧ q.startDeadlineAt.isSome then
    .error (.valueError "defer_start_deadline cannot be combined with start_deadline_at")
  else if q.ownerControllerLabel.isNone ≠ q.ownerSessionDigest.isNone then
    .error (.valueError
      "owner_controller_label and owner_session_nonce must be supplied together")
  else if q.ownerControllerLabel = some "" then
    .error (.valueError "owner_controller_label must be a non-empty string")
  else
    match j.attemptForDispatch q.dispatchId with
    | some a =>
      match q.refusal a with
      | some abort => .error abort
      | none =>
        .ok (a.identity, { j with
          attempts := j.attempts.modifyWhere
            (fun b => b.attemptId = a.attemptId ∧ b.lifecycle = .live .prepared)
            (fun b => { b with
              effectiveAccount := b.effectiveAccount.or q.assertedAccount
              engine := b.engine.or q.assertedEngine })
            (fun _ _ => ⟨rfl, rfl, rfl⟩) })
    | none =>
      match j.attempts.insert? q.row with
      | none => .error (.constraint "dispatch_attempts")
      | some attempts => .ok (q.row.identity, { j with attempts := attempts })

/-- `rebind_prepared_attempt_account`. -/
def Journal.rebindPreparedAttemptAccount (j : Journal) (dispatchId : String)
    (expectedEffectiveAccount : Option String) (effectiveAccount : String)
    (engine : Option String) : Tx AttemptIdentity :=
  if asserted (some effectiveAccount) = none then
    .error (.valueError "effective_account must be a non-empty string")
  else
    match j.attemptForDispatch dispatchId with
    | none => .error (.casMismatch "prepared dispatch attempt is missing")
    | some a =>
      if a.lifecycle ≠ .live .prepared then
        .error (.casMismatch "prepared dispatch attempt already crossed the launch boundary")
      else if a.effectiveAccount ≠ expectedEffectiveAccount then
        .error (.casMismatch "prepared dispatch account attribution changed")
      else if AttemptRequest.Contradicts a.engine (asserted engine) then
        .error (.casMismatch "prepared dispatch engine changed")
      else
        .ok (a.identity, { j with
          attempts := j.attempts.modifyWhere
            (fun b => b.attemptId = a.attemptId ∧ b.lifecycle = .live .prepared ∧
              b.effectiveAccount = expectedEffectiveAccount)
            (fun b => { b with
              effectiveAccount := some effectiveAccount
              engine := b.engine.or (asserted engine) })
            (fun _ _ => ⟨rfl, rfl, rfl⟩) })

/-! ### Launching -/

/-- `start_attempt`: `PREPARED → STARTING` under the launch epoch. -/
def Journal.startAttempt (j : Journal) (attemptId launchToken : String)
    (expectedLaunchEpoch : ℕ) (now startDeadline : Timestamp) : Tx AttemptIdentity :=
  let claimed := fun a : DispatchAttempt =>
    a.attemptId = attemptId ∧ a.launchToken = launchToken ∧
      a.lifecycle = .live .prepared ∧ a.launchEpoch = expectedLaunchEpoch
  let start := fun a : DispatchAttempt => { a with
    lifecycle := .live .starting
    launchEpoch := a.launchEpoch + 1
    stateUpdatedAt := now
    startDeadlineAt := some startDeadline }
  match j.attempts.find? fun a => claimed a with
  | none => .error (.casMismatch
      "PREPARED -> STARTING lost: attempt, token, state, or launch_epoch changed")
  | some a =>
    .ok ((start a).identity, { j with
      attempts := j.attempts.modifyWhere claimed start
        (fun a ha => ⟨rfl, rfl, by simp [start, DispatchAttempt.terminalTransitionId,
          Lifecycle.terminal?, ha.2.2.1]⟩) })

/-- `mark_attempt_running`: `STARTING → RUNNING` under the launch epoch. -/
def Journal.markAttemptRunning (j : Journal) (attemptId launchToken : String)
    (launchEpoch : ℕ) (workerInstance : String) (now : Timestamp) : Tx AttemptIdentity :=
  let claimed := fun a : DispatchAttempt =>
    a.attemptId = attemptId ∧ a.launchToken = launchToken ∧
      a.lifecycle = .live .starting ∧ a.launchEpoch = launchEpoch
  let claim := fun a : DispatchAttempt => { a with
    lifecycle := .live .running
    workerInstance := some workerInstance
    stateUpdatedAt := now }
  if launchEpoch < 1 then .error (.valueError "launch_epoch must be >= 1")
  else
    match j.attempts.find? fun a => claimed a with
    | none => .error (.casMismatch
        "STARTING -> RUNNING lost: attempt, token, state, or launch_epoch changed")
    | some a =>
      .ok ((claim a).identity, { j with
        attempts := j.attempts.modifyWhere claimed claim
          (fun a ha => ⟨rfl, rfl, by simp [claim, DispatchAttempt.terminalTransitionId,
            Lifecycle.terminal?, ha.2.2.1]⟩) })

/-! ### Ending -/

/-- `TERMINAL_EVENT_TYPES`. -/
def terminalEventTypes : List String := ["result", "blocked", "user_need", "user_confirm"]

/-- The arguments of `commit_terminal`, with the UUIDs, the host name and the timestamp
it draws. -/
structure TerminalRequest where
  attemptId : String
  terminalState : String
  observation : String
  eventType : Option String
  deadlineAtOrBefore : Option Timestamp
  allowFinalSupersession : Bool
  transitionId : String
  event : EventId
  now : Timestamp

/-- `TerminalCommit`. -/
structure TerminalCommit where
  attemptId : String
  transitionId : String
  dispatchId : String
  terminalState : String
  eventUuid : String
  eventType : String
  observation : String
  terminalAt : Timestamp
  idempotent : Bool

namespace TerminalRequest

/-- The event type the commit announces. -/
def resolvedEventType (q : TerminalRequest) : String :=
  (q.eventType.filter (· ≠ "")).getD
    (if q.terminalState = "complete" then "result" else "blocked")

/-- The lifecycle state the commit leads to. -/
def finalLifecycle (q : TerminalRequest) : FinalState :=
  if q.terminalState = "abandoned" then .abandoned else .terminal

/-- `superseding_final`: an explicit withdrawal of a verdict that only presumed the
worker dead. -/
def Supersedes (q : TerminalRequest) (a : DispatchAttempt) : Prop :=
  ∃ t ∈ a.lifecycle.terminal?, q.allowFinalSupersession ∧
    q.terminalState ∈ ["superseded", "withdrawn"] ∧
    t.terminalState ∈ ["worker_dead", "stale_dead", "abandoned"]

instance (q : TerminalRequest) (a : DispatchAttempt) : Decidable (q.Supersedes a) := by
  unfold Supersedes
  cases a.lifecycle.terminal? with
  | none => exact isFalse (by simp)
  | some t =>
    exact decidable_of_iff (q.allowFinalSupersession ∧
      q.terminalState ∈ ["superseded", "withdrawn"] ∧
      t.terminalState ∈ ["worker_dead", "stale_dead", "abandoned"]) (by simp)

/-- Still waiting to be claimed by a worker, with a start deadline that has passed. -/
def Expired (a : DispatchAttempt) (observedAt : Timestamp) : Prop :=
  (a.lifecycle = .live .prepared ∨ a.lifecycle = .live .starting) ∧
    ∃ deadline ∈ a.startDeadlineAt, deadline ≤ observedAt

instance (a : DispatchAttempt) (observedAt : Timestamp) :
    Decidable (Expired a observedAt) := by
  unfold Expired
  cases a.startDeadlineAt with
  | none => exact isFalse (by simp)
  | some d =>
    exact decidable_of_iff
      ((a.lifecycle = .live .prepared ∨ a.lifecycle = .live .starting) ∧ d ≤ observedAt)
      (by simp)

/-- The terminal columns the commit writes. -/
def terminalColumns (q : TerminalRequest) : TerminalColumns where
  state := q.finalLifecycle
  transitionId := q.transitionId
  terminalState := q.terminalState
  outcome := q.observation
  terminalAt := q.now

/-- The transition the commit records. -/
def transition (q : TerminalRequest) (a : DispatchAttempt) : DispatchTransition where
  attemptId := q.attemptId
  transitionId := q.transitionId
  fromState := a.lifecycle.state
  toState := q.finalLifecycle
  terminalState := q.terminalState
  observation := q.observation
  createdAt := q.now

/-- The event the commit puts in the outbox. -/
def outboxRow (q : TerminalRequest) (a : DispatchAttempt) : TerminalOutboxRow where
  attemptId := q.attemptId
  transitionId := q.transitionId
  event := q.event
  recipient := a.dispatchId
  eventType := q.resolvedEventType
  payload :=
    { attemptId := q.attemptId
      transitionId := q.transitionId
      dispatchId := a.dispatchId
      terminalState := q.terminalState
      complete := q.resolvedEventType = "result"
      observation := q.observation }
  createdAt := q.now
  projectedAt := none
  projectionAttempts := 0
  projectionError := none
  projectionRetryAt := none
  projectionQuarantinedAt := none

end TerminalRequest

/-- The attempt with an id. -/
def Journal.attempt (j : Journal) (attemptId : String) : Option DispatchAttempt :=
  j.attempts.find? fun a => a.attemptId = attemptId

/-- The outbox row of an attempt's transition. -/
def Journal.outboxRow (j : Journal) (attemptId transitionId : String) :
    Option TerminalOutboxRow :=
  j.outbox.find? fun o => o.attemptId = attemptId ∧ o.transitionId = transitionId

/-- The answer to a commit that finds the attempt already ended: the verdict it has. -/
def Journal.standingVerdict (j : Journal) (a : DispatchAttempt) (t : TerminalColumns) :
    Tx TerminalCommit :=
  match j.outboxRow a.attemptId t.transitionId with
  | none => .error (.journalIntegrity
      "terminal attempt exists without its transition/outbox row")
  | some o =>
    .ok (⟨a.attemptId, t.transitionId, a.dispatchId, t.terminalState, o.event.eventUuid,
      o.eventType, t.outcome, t.terminalAt, true⟩, j)

/-- The writes of a commit that ends the attempt. -/
def Journal.writeVerdict (j : Journal) (q : TerminalRequest) (a : DispatchAttempt) :
    Tx TerminalCommit :=
  let updated := fun b : DispatchAttempt => b.attemptId = q.attemptId ∧
    ∀ d ∈ q.deadlineAtOrBefore, TerminalRequest.Expired b d
  if ¬ updated a then .error (.casMismatch "terminal commit lost to another classifier")
  else
    match j.attempts.update? fun b =>
        if updated b then
          { b with lifecycle := .final q.terminalColumns, stateUpdatedAt := q.now }
        else b with
    | none => .error (.constraint "dispatch_attempts")
    | some attempts =>
      match j.transitions.insert? (q.transition a) with
      | none => .error (.constraint "dispatch_transitions")
      | some transitions =>
        match j.outbox.insert? (q.outboxRow a) with
        | none => .error (.constraint "terminal_outbox")
        | some outbox =>
          .ok (⟨q.attemptId, q.transitionId, a.dispatchId, q.terminalState,
              q.event.eventUuid, q.resolvedEventType, q.observation, q.now, false⟩,
            { j with
              attempts := attempts
              transitions := transitions
              outbox := outbox })

/-- `commit_terminal`. -/
def Journal.commitTerminal (j : Journal) (q : TerminalRequest) : Tx TerminalCommit :=
  if q.resolvedEventType ∉ terminalEventTypes then
    .error (.valueError
      "terminal event_type must be result, blocked, user_need, or user_confirm")
  else
    match j.attempt q.attemptId with
    | none => .error (.casMismatch "terminal commit lost: attempt does not exist")
    | some a =>
      if q.Supersedes a then j.writeVerdict q a
      else
        match a.lifecycle with
        | .final t => j.standingVerdict a t
        | .live s =>
          match q.deadlineAtOrBefore with
          | none => j.writeVerdict q a
          | some observedAt =>
            if s = .running then
              .error (.casMismatch ("expired launch abandonment lost: worker " ++
                "already claimed or attempt changed"))
            else if ¬ TerminalRequest.Expired a observedAt then
              .error (.casMismatch ("expired launch abandonment lost: start " ++
                "deadline is no longer expired"))
            else j.writeVerdict q a

/-- `commit_expired_attempt`: the request it passes on to `commit_terminal`. -/
def TerminalRequest.expired (attemptId : String) (observedAt : Timestamp)
    (terminalState observation transitionId : String) (event : EventId) (now : Timestamp) :
    TerminalRequest where
  attemptId := attemptId
  terminalState := terminalState
  observation := observation
  eventType := some (if terminalState = "complete" then "result" else "blocked")
  deadlineAtOrBefore := some observedAt
  allowFinalSupersession := false
  transitionId := transitionId
  event := event
  now := now

/-! ### The tables attempts write -/

/-- Only the attempt, transition and outbox tables differ. -/
def AttemptWrite (j j' : Journal) : Prop :=
  ∃ attempts transitions outbox, j' = { j with
    attempts := attempts
    transitions := transitions
    outbox := outbox }

theorem AttemptWrite.refl (j : Journal) : AttemptWrite j j := ⟨_, _, _, rfl⟩

theorem AttemptWrite.spares (h : AttemptWrite j j') :
    j.delivery.Spares j'.delivery := by
  obtain ⟨_, _, _, rfl⟩ := h
  exact .refl _

/-- Only the attempt table differs. -/
def AttemptsOnly (j j' : Journal) : Prop := ∃ attempts, j' = { j with attempts := attempts }

theorem AttemptsOnly.attemptWrite (h : AttemptsOnly j j') :
    AttemptWrite j j' := by
  obtain ⟨_, rfl⟩ := h
  exact ⟨_, _, _, rfl⟩

theorem prepareAttempt_write {q : AttemptRequest} (h : j.prepareAttempt q = .ok (v, j')) :
    AttemptsOnly j j' := by
  unfold Journal.prepareAttempt at h
  split at h
  · cases h
  split at h
  · cases h
  split at h
  · cases h
  split at h
  · split at h
    · cases h
    · cases h
      exact ⟨_, rfl⟩
  · split at h
    · cases h
    · cases h
      exact ⟨_, rfl⟩

theorem rebindPreparedAttemptAccount_write {dispatchId account : String}
    {expected engine : Option String}
    (h : j.rebindPreparedAttemptAccount dispatchId expected account engine = .ok (v, j')) :
    AttemptsOnly j j' := by
  unfold Journal.rebindPreparedAttemptAccount at h
  split at h
  · cases h
  split at h
  · cases h
  split at h
  · cases h
  split at h
  · cases h
  split at h
  · cases h
  · cases h
    exact ⟨_, rfl⟩

theorem startAttempt_write {attemptId launchToken : String} {epoch : ℕ}
    {now startDeadline : Timestamp}
    (h : j.startAttempt attemptId launchToken epoch now startDeadline = .ok (v, j')) :
    AttemptsOnly j j' := by
  unfold Journal.startAttempt at h
  simp only at h
  split at h
  · cases h
  · cases h
    exact ⟨_, rfl⟩

theorem markAttemptRunning_write {attemptId launchToken : String} {launchEpoch : ℕ}
    {workerInstance : String} {now : Timestamp}
    (h : j.markAttemptRunning attemptId launchToken launchEpoch workerInstance now =
      .ok (v, j')) : AttemptsOnly j j' := by
  unfold Journal.markAttemptRunning at h
  simp only at h
  split at h
  · cases h
  split at h
  · cases h
  · cases h
    exact ⟨_, rfl⟩

variable {v : TerminalCommit}

theorem writeVerdict_write {q : TerminalRequest} {a : DispatchAttempt}
    (h : j.writeVerdict q a = .ok (v, j')) : AttemptWrite j j' := by
  unfold Journal.writeVerdict at h
  simp only at h
  split at h
  · cases h
  split at h
  · cases h
  split at h
  · cases h
  split at h
  · cases h
  · cases h
    exact ⟨_, _, _, rfl⟩

/-- What a committed `commit_terminal` did: it wrote a verdict, or it found one standing
and changed nothing. -/
theorem commitTerminal_cases {q : TerminalRequest}
    (h : j.commitTerminal q = .ok (v, j')) :
    ∃ a, j.attempt q.attemptId = some a ∧ q.resolvedEventType ∈ terminalEventTypes ∧
      ((j.writeVerdict q a = .ok (v, j') ∧
          ((∃ s, a.lifecycle = .live s) ∨ q.Supersedes a)) ∨
        ∃ t, a.lifecycle = .final t ∧ ¬ q.Supersedes a ∧
          j.standingVerdict a t = .ok (v, j')) := by
  unfold Journal.commitTerminal at h
  split at h
  · cases h
  rename_i htype
  split at h
  · cases h
  rename_i a ha
  refine ⟨a, ha, not_not.mp htype, ?_⟩
  split at h
  · exact .inl ⟨h, .inr ‹_›⟩
  rename_i hsup
  split at h
  · exact .inr ⟨_, ‹_›, hsup, h⟩
  · refine .inl ⟨?_, .inl ⟨_, ‹_›⟩⟩
    split at h
    · exact h
    · split at h
      · cases h
      split at h
      · cases h
      · exact h

theorem standingVerdict_eq_ok {a : DispatchAttempt} {t : TerminalColumns}
    (h : j.standingVerdict a t = .ok (v, j')) :
    j' = j ∧ ∃ o, j.outboxRow a.attemptId t.transitionId = some o ∧
      v = ⟨a.attemptId, t.transitionId, a.dispatchId, t.terminalState, o.event.eventUuid,
        o.eventType, t.outcome, t.terminalAt, true⟩ := by
  unfold Journal.standingVerdict at h
  split at h
  · cases h
  · cases h
    exact ⟨rfl, _, ‹_›, rfl⟩

theorem commitTerminal_write {q : TerminalRequest}
    (h : j.commitTerminal q = .ok (v, j')) : AttemptWrite j j' := by
  obtain ⟨a, -, -, ⟨hw, -⟩ | ⟨t, -, -, hs⟩⟩ := commitTerminal_cases h
  · exact writeVerdict_write hw
  · obtain ⟨rfl, -⟩ := standingVerdict_eq_ok hs
    exact .refl _

end GoalFlight
