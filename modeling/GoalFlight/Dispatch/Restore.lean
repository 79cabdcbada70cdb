import GoalFlight.Dispatch.Admission
import GoalFlight.Dispatch.Authority
import GoalFlight.Dispatch.Disk

/-!
# Dispatch: putting a claim back into the queue

`_commit_restore_transaction` turns a claim back into a queued envelope: it writes the
envelope as `restore_prepared`, resets the ledger row to `queued`, publishes the envelope as
`queued` and unlinks the claim.  A later pass that finds the envelope prepared goes on from
there.  `_republish_prelaunch_queue_carrier` rebuilds an envelope from the row alone.

Both hold the queue lock and the ledger lock throughout, so nothing else that takes the locks
writes in between; each is a script of writes made of the disk the locks were taken on.
-/

namespace GoalFlight.Dispatch

open Json GoalFlight.Capacity

/-! ### What a transaction reads beside the disk -/

/-- The writes of a transaction that fail. -/
structure Faults where
  claimWrite : Bool := false
  claimUnlink : Bool := false
  targetWrite : Bool := false
  targetUnlink : Bool := false
  rowWrite : Bool := false
  publish : Bool := false
  quarantineWrite : Bool := false
  /-- The journal refuses the terminal commit, or cannot be written. -/
  terminal : Bool := false

/-- What a transaction reads beside the disk. -/
structure ReconcileWorld where
  host : Host
  authority : AuthorityWorld
  /-- The part of `_reconcile_transaction_still_valid` that looks at the output's file. -/
  modeHolds : QueueEntry → Bool
  /-- `uuid.uuid4().hex`. -/
  newTxnId : String
  faults : Faults := {}

/-- The completion authority's world, with the ledger of the disk. -/
def ReconcileWorld.authorityOn (w : ReconcileWorld) (d : Disk) : AuthorityWorld :=
  { w.authority with findRecord := fun id => some (d.findRecord id) }

/-- A script of writes, and what the caller is told. -/
structure Outcome (ρ : Type) where
  script : List DiskWrite
  result : ρ

/-- What `_commit_restore_transaction` returns: the published envelope, a decision, or
neither. -/
inductive RestoreResult
  | restored
  | decided (d : CompletionDecision)
  | nothing

/-! ### The envelope -/

/-- `_sanitize_restore_envelope`: the claim without what its launch left on it. -/
def QueueEntry.sanitized (e : QueueEntry) (incrementRecoveryCount : Bool) : QueueEntry :=
  { e with
    queueLaunchToken := none
    queueClaimerPid := .null
    queueClaimerIdentity := .null
    queueLaunchStarted := false
    queueLaunchStartedAt := .absent
    queueLauncherPid := .null
    queueLauncherIdentity := .null
    queueWorkerPid := .null
    queueWorkerIdentity := .null
    queueWorkerPgid := .null
    queueWorkerSpawnIntent := false
    queueWorkerSpawnIntentAt := .absent
    queueWorkerSpawnedAt := .absent
    completionAuthorityReason := none
    claimRecoveryCount :=
      if incrementRecoveryCount then .int (recoveryCount e.claimRecoveryCount + 1)
      else e.claimRecoveryCount }

/-- The envelope, prepared or queued. -/
def QueueEntry.envelope (e : QueueEntry) (state txn : String) : QueueEntry :=
  { e with state := state, restoreTxnId := some txn }

/-! ### The row -/

/-- `PRE_WORKER_LEDGER_STATES`. -/
def preWorkerLedgerStates : List String := ["queued", "waiting_capacity", "submitted", "claimed"]

/-- `_ledger_is_restorable_prelaunch` of a row that is there. -/
def LedgerRow.restorablePrelaunch (r : LedgerRow) : Bool :=
  if r.state = "blocked_capacity" then (given r.terminalEventUuid).isNone
  else !r.isTerminal && r.state ∈ preWorkerLedgerStates

/-- `_ledger_is_capacity_refusal` of a row that is there. -/
def LedgerRow.capacityRefusal (r : LedgerRow) : Bool :=
  r.state ∈ ["waiting_capacity", "blocked_capacity"]

/-- The row is terminal and bound to the claim, and no capacity refusal. -/
def boundTerminal (e : QueueEntry) (r : LedgerRow) : Prop :=
  r.isTerminal = true ∧ r.state ≠ "blocked_capacity" ∧ completionAuthorityTokenBind e r = .same

instance (e : QueueEntry) (r : LedgerRow) : Decidable (boundTerminal e r) :=
  inferInstanceAs (Decidable (_ ∧ _ ∧ _))

/-- The row is queued by this restore already. -/
def LedgerRow.queuedBy (r : LedgerRow) (txn : String) : Prop :=
  r.restoreTxnId = some txn ∧ r.state = "queued"

instance (r : LedgerRow) (txn : String) : Decidable (r.queuedBy txn) :=
  inferInstanceAs (Decidable (_ ∧ _))

/-- The owner fields a row lacks, from the claim. -/
def LedgerRow.attributed (r : LedgerRow) (e : QueueEntry) : LedgerRow :=
  { r with
    controllerLabel :=
      if (given r.controllerLabel).isSome then r.controllerLabel
      else (e.controllerLabel.filter (strip · ≠ "")).or r.controllerLabel
    controllerSessionId :=
      if (given r.controllerSessionId).isSome then r.controllerSessionId
      else (e.controllerSessionId.filter (strip · ≠ "")).or r.controllerSessionId
    controllerPid :=
      if r.controllerPid.truthy then r.controllerPid
      else ((e.controllerPid.int?).map Value.int).getD r.controllerPid
    controllerIdentity :=
      if r.controllerIdentity.truthy then r.controllerIdentity
      else if e.controllerIdentity.isDict then e.controllerIdentity else r.controllerIdentity }

/-- The row that names the envelope as queued work, launched by nobody. -/
def LedgerRow.requeued (r : LedgerRow) (stem txn : String) : LedgerRow :=
  { r with
    state := "queued"
    terminalState := some "unknown"
    livenessState := some "queued"
    workerStillAlive := .bool false
    queueLaunchToken := none
    queuePath := some (stem ++ ".json")
    restoreTxnId := some txn }

/-- `_new_reconciliation_record`. -/
def newReconciliationRecord (e : QueueEntry) (now : Seconds) : LedgerRow :=
  LedgerRow.attributed
    { dispatchId := e.dispatchId
      transport := "dispatch"
      projectRoot := (given e.projectRoot).or e.requestCwd
      taskIds := taskIdsOf e.taskIds
      queueLaunchToken := e.queueLaunchToken
      workerPid := e.queueWorkerPid
      workerIdentity := e.queueWorkerIdentity
      workerPgid := e.queueWorkerPgid
      startedAt :=
        if e.startedAt.given then e.startedAt
        else if e.createdAt.given then e.createdAt
        else .at now } e

/-! ### The claim, parked or deferred -/

/-- `COMPLETION_AUTHORITY_PARK_REASONS`. -/
def completionAuthorityParkReasons : List String :=
  ["completion_authority_unavailable", "completion_authority_token_indeterminate",
    completionAuthorityTimestampUnreadable]

/-- `_persist_completion_authority_park` and `_persist_completion_authority_deferral`: the
answer is left open, and the claim says so. -/
def ReconcileWorld.deferClaim (w : ReconcileWorld) (c : ClaimPath) (e : QueueEntry)
    (decision : CompletionDecision) : List DiskWrite :=
  if w.faults.claimWrite then []
  else if decision.boundedDeferral then
    [.put (.claim c) { e with
      completionAuthorityDeferralCount :=
        .int (min maxCompletionAuthorityDeferrals (completionAuthorityDeferralCount e + 1)) }]
  else if decision.reason ∈ completionAuthorityParkReasons then
    [.put (.claim c) { e with completionAuthorityReason := some decision.reason }]
  else []

/-- `_completion_decision_blocks_restore`. -/
def CompletionDecision.blocksRestore (decision : CompletionDecision) : Bool :=
  decision.state ∈ ["complete", "superseded", "worker_dead", "deferred",
    blockedCompletionAuthorityState] ++ successTerminalRecordStates

/-! ### The transaction -/

/-- The decision of a row that is terminal already. -/
def existingTerminalDecision (r : LedgerRow) : CompletionDecision :=
  { state := if r.existingState = "" then "complete" else r.existingState
    reason := "existing_terminal_record"
    source := "ledger" }

/-- The envelope at the target is one this dispatch's restores left. -/
def QueueEntry.isRestoreOf (t e : QueueEntry) : Prop :=
  (t.state = "restore_prepared" ∨ t.state = "queued") ∧ t.dispatchId = e.dispatchId ∧
    (given t.restoreTxnId).isSome

instance (t e : QueueEntry) : Decidable (t.isRestoreOf e) :=
  inferInstanceAs (Decidable (_ ∧ _ ∧ _))

/-- `_unlink_matching_restore_target`; no value on a conflict. -/
def ReconcileWorld.unlinkTarget (w : ReconcileWorld) (d : Disk) (stem : String)
    (e : QueueEntry) : Option (List DiskWrite) :=
  match d.file (.envelope stem) with
  | some .unreadable => none
  | some (.entry t) =>
    if t.isRestoreOf e then
      if w.faults.targetUnlink then none else some [.unlink (.envelope stem)]
    else some []
  | _ => some []

/-- The claim's file goes, where there is one; no value where it stays. -/
def ReconcileWorld.unlinkClaim (w : ReconcileWorld) (d : Disk) (c : ClaimPath) :
    Option (List DiskWrite) :=
  if (d.file (.claim c)).isNone then some []
  else if w.faults.claimUnlink then none
  else some [.unlink (.claim c)]

/-- The last two steps: the envelope is published and the claim unlinked. -/
def ReconcileWorld.publish (w : ReconcileWorld) (d : Disk) (c : ClaimPath)
    (prepared : QueueEntry) (label : Option String) (script : List DiskWrite) :
    Outcome RestoreResult :=
  let published := { prepared with
    state := "queued"
    controllerLabel :=
      if (given prepared.controllerLabel).isSome then prepared.controllerLabel
      else label.or prepared.controllerLabel }
  if w.faults.publish then ⟨script, .nothing⟩
  else
    match w.unlinkClaim d c with
    | none => ⟨script ++ [.put (.envelope c.stem) published], .nothing⟩
    | some unlink => ⟨script ++ .put (.envelope c.stem) published :: unlink, .restored⟩

/-- The steps after the envelope is prepared: the row is reset, unless this restore did so
already, and the envelope published. -/
def ReconcileWorld.finishRestore (w : ReconcileWorld) (d : Disk) (c : ClaimPath)
    (e prepared : QueueEntry) (txn : String) (script : List DiskWrite) : Outcome RestoreResult :=
  let record := d.findRecord e.dispatchId
  let label := (((record.getD { dispatchId := e.dispatchId }).attributed e).controllerLabel)
  if record.any fun r => r.queuedBy txn then w.publish d c prepared label script
  else
    let base := record.getD (newReconciliationRecord e w.host.now)
    if boundTerminal e base then
      ⟨script ++ (if w.faults.targetUnlink then [] else [.unlink (.envelope c.stem)]),
        .decided (existingTerminalDecision base)⟩
    else if w.faults.rowWrite ∨ base.Unreadable then ⟨script, .nothing⟩
    else
      w.publish d c prepared label
        (script ++ [.putRow ({ base.requeued c.stem txn with
          claimRecoveryCount := .int (prepared.claimRecoveryCount.int?.getD 0) }.attributed e)])

/-- The ledger names queued work already: the envelope is published as it is. -/
def ReconcileWorld.requeueNamed (w : ReconcileWorld) (d : Disk) (c : ClaimPath)
    (e : QueueEntry) (r : LedgerRow) (incrementRecoveryCount : Bool) : Outcome RestoreResult :=
  let txn := (given r.restoreTxnId).getD w.newTxnId
  let queued := (e.sanitized incrementRecoveryCount).envelope "queued" txn
  if w.faults.targetWrite then ⟨[], .nothing⟩
  else
    ⟨.put (.envelope c.stem) queued ::
      ((if r.restoreTxnId = some txn ∨ w.faults.rowWrite then []
        else [.putRow ({ r with
          restoreTxnId := some txn
          queuePath := some (c.stem ++ ".json")
          claimRecoveryCount := .int (queued.claimRecoveryCount.int?.getD 0) }.attributed e)]) ++
        (w.unlinkClaim d c).getD []), .restored⟩

/-- The restore, once nothing says that the work is done. -/
def ReconcileWorld.restoreOpen (w : ReconcileWorld) (d : Disk) (c : ClaimPath)
    (e : QueueEntry) (incrementRecoveryCount : Bool) : Outcome RestoreResult :=
  let record := d.findRecord e.dispatchId
  match d.file (.envelope c.stem) with
  | some (.entry t) =>
    match given t.restoreTxnId with
    | none => ⟨[], .nothing⟩
    | some txn =>
      if t.state = "queued" then
        if record.any fun r => r.queuedBy txn then
          match w.unlinkClaim d c with
          | none => ⟨[], .nothing⟩
          | some unlink => ⟨unlink, .restored⟩
        else ⟨[], .nothing⟩
      else if t.state = "restore_prepared" then w.finishRestore d c e t txn []
      else ⟨[], .nothing⟩
  | some _ => ⟨[], .nothing⟩
  | none =>
    match record.filter fun r => r.state = "queued" with
    | some r => w.requeueNamed d c e r incrementRecoveryCount
    | none =>
      let prepared := (e.sanitized incrementRecoveryCount).envelope "restore_prepared" w.newTxnId
      if w.faults.targetWrite then ⟨[], .nothing⟩
      else w.finishRestore d c e prepared w.newTxnId [.put (.envelope c.stem) prepared]

/-- `_reconcile_transaction_still_valid`. -/
def ReconcileWorld.stillValid (w : ReconcileWorld) (begun fresh : QueueEntry) : Prop :=
  fresh.queueLaunchToken = begun.queueLaunchToken ∧ w.modeHolds fresh = true

instance (w : ReconcileWorld) (begun fresh : QueueEntry) : Decidable (w.stillValid begun fresh) :=
  inferInstanceAs (Decidable (_ ∧ _))

/-- The restore, once the completion authority says nothing. -/
def ReconcileWorld.restoreUndecided (w : ReconcileWorld) (d : Disk) (c : ClaimPath)
    (e : QueueEntry) (incrementRecoveryCount : Bool) : Outcome RestoreResult :=
  match (d.findRecord e.dispatchId).filter fun r => boundTerminal e r with
  | some r =>
    match w.unlinkTarget d c.stem e with
    | none => ⟨[], .nothing⟩
    | some unlink => ⟨unlink, .decided (existingTerminalDecision r)⟩
  | none => w.restoreOpen d c e incrementRecoveryCount

/-- `_commit_restore_transaction`, of a transaction begun with one reading of the claim and
the reading made under the locks. -/
def ReconcileWorld.commitRestore (w : ReconcileWorld) (d : Disk) (begun : QueueEntry)
    (c : ClaimPath) (fresh : QueueEntry) (incrementRecoveryCount : Bool) :
    Outcome RestoreResult :=
  if ¬ w.stillValid begun fresh then ⟨[], .nothing⟩
  else
    match (w.authorityOn d).entryCompletionAuthority fresh none {} with
    | some decision =>
      if decision.state = "deferred" then
        ⟨w.deferClaim c fresh decision, .decided decision⟩
      else if decision.blocksRestore then
        match w.unlinkTarget d c.stem fresh with
        | none => ⟨[], .nothing⟩
        | some unlink => ⟨unlink, .decided decision⟩
      else w.restoreUndecided d c fresh incrementRecoveryCount
    | none => w.restoreUndecided d c fresh incrementRecoveryCount

/-! ### From the row alone -/

/-- `_ledger_request_entry`: the entry a row stands for. -/
def LedgerRow.requestEntry (r : LedgerRow) : QueueEntry :=
  let envelope := r.requestEnvelope.getD {}
  let started := ["starting", "running", "running_quiet"]
  { envelope with
    dispatchId := r.dispatchId
    projectRoot := (given r.projectRoot).or envelope.projectRoot
    requestCwd := envelope.requestCwd.or r.projectRoot
    taskIds := if r.taskIds = [] then envelope.taskIds else r.taskIds
    dispatchArgv := if envelope.dispatchArgv = [] then r.dispatchArgv else envelope.dispatchArgv
    queueLaunchToken := r.queueLaunchToken
    queueWorkerPid := r.workerPid
    queueWorkerIdentity := r.workerIdentity
    queueWorkerPgid := r.workerPgid
    queueWorkerSpawnedAt :=
      if r.queueWorkerSpawnedAt.given then r.queueWorkerSpawnedAt
      else if r.workerPid.truthy ∨ r.state ∈ started then r.startedAt
      else .absent
    queueLaunchStarted :=
      r.workerPid.truthy || r.state ∉ "blocked_capacity" :: preWorkerLedgerStates
    queueWorkerSpawnIntent := r.workerPid.truthy || r.state ∈ started
    claimRecoveryCount := .int (recoveryCount r.claimRecoveryCount)
    orphanFirstSeenAt := r.orphanFirstSeenAt
    startedAt := r.startedAt }

/-- Why `_republish_prelaunch_queue_carrier` leaves the row as it is. -/
inductive RepublishResult
  | restored
  | missingArgv
  | stateChanged
  | carrierPresent
  | decided (d : CompletionDecision)
  | queueWriteDeferred
  | recordWriteDeferred

/-- `_republish_prelaunch_queue_carrier`, of a row as it was read before the locks were
taken. -/
def ReconcileWorld.republish (w : ReconcileWorld) (d : Disk) (snapshot : LedgerRow) :
    Outcome RepublishResult :=
  let e := snapshot.requestEntry
  let stem := snapshot.dispatchId
  if snapshot.dispatchId = "" ∨ e.dispatchArgv = [] then ⟨[], .missingArgv⟩
  else
    match (d.findRecord snapshot.dispatchId).filter LedgerRow.restorablePrelaunch with
    | none => ⟨[], .stateChanged⟩
    | some fresh =>
      if w.host.claimHasActiveCarrier d.listing snapshot.dispatchId ≠ some .none then
        ⟨[], .carrierPresent⟩
      else
        match ((w.authorityOn d).entryCompletionAuthority e (some fresh) {}).filter
            CompletionDecision.blocksRestore with
        | some decision => ⟨[], .decided decision⟩
        | none =>
          let published := (e.sanitized false).envelope "queued" w.newTxnId
          if w.faults.targetWrite then ⟨[], .queueWriteDeferred⟩
          else if w.faults.rowWrite then
            ⟨[.put (.envelope stem) published], .recordWriteDeferred⟩
          else
            ⟨[.put (.envelope stem) published, .putRow (snapshot.requeued stem w.newTxnId)],
              .restored⟩

end GoalFlight.Dispatch
