import GoalFlight.Dispatch.Restore

/-!
# Dispatch: what a pass does with a claim it finds

`_reconcile_claim_transaction` takes up a claim that is admitted: under the output's gate and the
queue, task-store and ledger locks it reads the claim again and, when it is old enough, restores,
terminalizes, quarantines or clears it.  A claim of a live launch, or of one on another node, it
only clears, and only when the ledger accounts for the worker.

The drain that made a claim releases it through `_restore_claim_if_incomplete`;
`_resume_restore_prepared_envelopes` goes on with a restore from the envelope alone.
-/

namespace GoalFlight.Dispatch

open Json GoalFlight.Capacity

/-! ### What a pass reads beside what its restores read -/

/-- What the journal answers to a terminal commit: the end that won. -/
structure TerminalCommit where
  terminalState : String
  terminalAt : Stamp := .absent
  eventUuid : String

/-- What a pass reads beside the disk. -/
structure RecoveryWorld extends ReconcileWorld where
  /-- `_begin_reconcile_transaction` finds the output's gate and every lock free. -/
  begins : Bool := true
  /-- `try_acquire_queue_lock` of a cleanup. -/
  queueLock : Bool := true
  /-- `_resolve_claim_terminal_outcome`, where the output says how the work ended. -/
  outputOutcome : QueueEntry → Option (String × Value) := fun _ => none
  /-- `commit_terminal_authority`, asked for an end of a dispatch. -/
  winner : String → String → TerminalCommit := fun _ terminal =>
    { terminalState := terminal, eventUuid := "" }

/-- A claim and the row of its dispatch, as a pass read them before it took a lock. -/
structure Reading where
  host : Host
  row : Option LedgerRow
  entry : QueueEntry

/-- What `_reconcile_claim_transaction` reports. -/
inductive RecoveryAction
  | restored
  | cleared
  | quarantined
  | pending

/-- The outcome, after writes made before. -/
def Outcome.following {ρ : Type} (o : Outcome ρ) (script : List DiskWrite) : Outcome ρ :=
  ⟨script ++ o.script, o.result⟩

/-- `_is_task_linked`. -/
def isTaskLinked (e : QueueEntry) (row : Option LedgerRow) : Bool :=
  taskIdsOf (e.taskIds ++ (row.map LedgerRow.taskIds).getD []) ≠ []

/-- The age of a stamp. -/
def ageAt (now stamp : Seconds) : Seconds := max 0 (now - stamp)

/-! ### Terminal commits -/

/-- `terminal_liveness_state`. -/
def terminalLivenessState (state : String) : String :=
  if state = "complete" then "completed"
  else if state ∈ limitTerminalStates then (normalizeDispatchState state).getD state
  else if state = "worker_dead" then "worker_dead"
  else if "blocked".toList.isPrefixOf state.toList then "blocked"
  else if state = "orphaned" ∨ state = "controller_dead" then "controller_dead"
  else if state = "" then "terminal"
  else state

/-- The row with the cause of its end: `failure_envelope`. -/
def LedgerRow.withCause (r : LedgerRow) (reason : Value) : LedgerRow :=
  match reason with
  | .obj _ | .arr _ => { r with error := reason }
  | _ => if reason.isAbsent then r else { r with reason := reason }

/-- The row with the event and the time of the end that won. -/
def LedgerRow.ended (r : LedgerRow) (win : TerminalCommit) : LedgerRow :=
  { r with
    terminalEventUuid := some win.eventUuid
    endedAt := if r.endedAt.given then r.endedAt else win.terminalAt }

/-- The row of a dispatch that ends in a state. -/
def LedgerRow.finished (r : LedgerRow) (state : String) (reason : Value)
    (win : TerminalCommit) : LedgerRow :=
  { (r.ended win).withCause reason with
    state := state
    terminalState := some win.terminalState
    livenessState := some (terminalLivenessState state)
    workerStillAlive := .bool false }

/-- The terminal keys that are no end. -/
def openTerminalKeys : List String := ["", "unknown", "watcher_stopped"]

/-- The journal's commit and then the row; the durable state, where both were written. -/
def RecoveryWorld.commitEnd (w : RecoveryWorld) (r : LedgerRow) (state : String) :
    Outcome (Option String) :=
  if w.faults.terminal then ⟨[], none⟩
  else if w.faults.rowWrite then ⟨[.finish r.dispatchId], none⟩
  else ⟨[.finish r.dispatchId, .putRow r], some state⟩

/-- `commit_reconciled_terminal`: the state that is on disk when it is done. -/
def RecoveryWorld.commitReconciledTerminal (w : RecoveryWorld) (d : Disk) (begun e : QueueEntry)
    (state : String) (reason : Value) : Outcome (Option String) :=
  if ¬ w.stillValid begun e ∨ e.dispatchId = "" then ⟨[], none⟩
  else
    let record := (d.findRecord e.dispatchId).getD (newReconciliationRecord e w.host.now)
    if record.Unreadable then ⟨[], none⟩
    else if record.terminalKey ∉ openTerminalKeys then
      w.commitEnd (record.ended (w.winner e.dispatchId record.terminalKey))
        (if record.state = "" then record.terminalKey else record.state)
    else
      match (w.authorityOn d).entryCompletionAuthority e (some record) {} with
      | none =>
        let terminal := terminalStateFor state (textOf reason)
        if terminal ∈ openTerminalKeys then ⟨[], none⟩
        else w.commitEnd (record.finished state reason (w.winner e.dispatchId terminal)) state
      | some decision =>
        if decision.state = "deferred" then ⟨[], none⟩
        else
          let terminal := terminalStateFor decision.state (some decision.reason)
          if terminal ∈ openTerminalKeys then ⟨[], none⟩
          else
            w.commitEnd (record.finished decision.state (.str decision.reason)
              (w.winner e.dispatchId terminal)) decision.state

/-- The states that replace a worker's death as the end of a claim. -/
def forcedStates : List String := ["complete", "superseded", blockedCompletionAuthorityState]

/-- `_commit_claim_terminal_in_txn`. -/
def RecoveryWorld.commitClaimTerminal (w : RecoveryWorld) (d : Disk) (begun e : QueueEntry)
    (reason : String) (force : Option String) : Outcome (Option String) :=
  let found := (w.outputOutcome e).getD ("worker_dead", .str reason)
  match force.filter fun state => state ∈ forcedStates ∧ found.1 = "worker_dead" with
  | some state => w.commitReconciledTerminal d begun e state (.str reason)
  | none => w.commitReconciledTerminal d begun e found.1 found.2

/-! ### Quarantine -/

/-- `_persist_orphan_first_seen`: the first time the claim was seen orphaned. -/
def QueueEntry.seenOrphan (e : QueueEntry) (now : Seconds) : QueueEntry :=
  { e with orphanFirstSeenAt := if e.orphanFirstSeenAt.given then e.orphanFirstSeenAt else .at now }

/-- `record_for_this_claim`: the row carries the claim's launch token. -/
def QueueEntry.ownRecord (e : QueueEntry) (row : Option LedgerRow) : Option LedgerRow :=
  row.filter fun r => (given e.queueLaunchToken).isSome ∧ r.queueLaunchToken = e.queueLaunchToken

/-- The claim is an orphan as it is seen now: its own row is terminal and the worker gone, or
it has no row of its own and nothing was launched. -/
def RecoveryWorld.seesOrphan (w : RecoveryWorld) (d : Disk) (e : QueueEntry)
    (row : Option LedgerRow) (stale : Seconds) : Bool :=
  match e.ownRecord row with
  | some r =>
    r.isTerminal ∧
      (w.host.queueClaimIdentityStatus r.workerPid r.workerIdentity).1 ∉
        [ClaimIdentity.live, ClaimIdentity.indeterminate]
  | none =>
    ¬ (row.isSome ∧ (given e.queueLaunchToken).isNone) ∧ e.preSpawn ∧
      w.host.classifyReconciliationAdmission (d.findRecord e.dispatchId) e stale = .staleNoSpawn

/-- The launch token as a part of a file name. -/
def tokenSuffix (token : Option String) : String :=
  String.ofList ((((given token).getD "collision").toList.map fun c =>
    if c.isAlphanum ∨ c ∈ ['_', '.', '-'] then c else '-').take 16)

/-- `_quarantine_claim`: into the quarantine and out of the queue; `false` where a file stays
in the way or a write fails. -/
def RecoveryWorld.quarantineClaim (w : RecoveryWorld) (d : Disk) (c : ClaimPath)
    (e : QueueEntry) (reason : String) : Outcome Bool :=
  let parked : QuarantinedClaim := ⟨{ e with state := "quarantined" }, reason⟩
  let unlink : Outcome Bool :=
    if w.faults.claimUnlink then ⟨[], false⟩ else ⟨[.unlink (.claim c)], true⟩
  let move (dest : QuarantinePath) : Outcome Bool :=
    if w.faults.quarantineWrite then ⟨[], false⟩
    else unlink.following [.quarantine dest parked]
  match d.quarantine.lookup ⟨c, ""⟩ with
  | none => move ⟨c, ""⟩
  | some q =>
    -- An earlier attempt at this quarantine may have crashed before its unlink.
    if q.entry.dispatchId = e.dispatchId ∧ q.entry.queueLaunchToken = e.queueLaunchToken ∧
        q.reason = reason then unlink
    else
      let dest : QuarantinePath := ⟨c, tokenSuffix e.queueLaunchToken⟩
      if (d.quarantine.lookup dest).isSome then ⟨[], false⟩ else move dest

/-- `_quarantine_unlinked_claim_if_observed_orphan`: only a claim that was seen orphaned
before, and long enough ago. -/
def RecoveryWorld.quarantineOrphan (w : RecoveryWorld) (d : Disk) (c : ClaimPath)
    (e : QueueEntry) (row : Option LedgerRow) (reason : String) (stale : Seconds) :
    Outcome Bool :=
  if isTaskLinked e (e.ownRecord row) ∨ ¬ w.seesOrphan d e row stale then ⟨[], false⟩
  else
    match e.orphanFirstSeenAt.seconds? with
    | none =>
      ⟨if w.faults.claimWrite then [] else [.put (.claim c) (e.seenOrphan w.host.now)], false⟩
    | some stamp =>
      if ageAt w.host.now stamp < max 0 stale then ⟨[], false⟩
      else w.quarantineClaim d c e (reason ++ "_observed_orphan")

/-- The quarantine as the end of a transaction. -/
def RecoveryWorld.quarantineOr (w : RecoveryWorld) (d : Disk) (c : ClaimPath) (e : QueueEntry)
    (row : Option LedgerRow) (reason : String) (stale : Seconds) : Outcome RecoveryAction :=
  let o := w.quarantineOrphan d c e row reason stale
  ⟨o.script, if o.result then .quarantined else .pending⟩

/-! ### Clearing a claim -/

/-- `_dispatch_record_has_live_nonterminal_worker`. -/
def Host.hasLiveNonterminalWorker (h : Host) (r : LedgerRow) : Bool :=
  let prior := r.workerIdentity.orElse (r.claimantIdentity.orElse
    (r.controllerIdentity.orElse (.obj [])))
  match pidOf r.workerPid with
  | none => false
  | some pid =>
    !r.isTerminal && prior.isDict &&
      match h.identityMatches pid prior with
      | some (true, reason) => reason ≠ .identityIndeterminate
      | _ => false

/-- `_dispatch_has_worker_record`, of a worker that is live and not terminal. -/
def Host.hasWorkerRecord (h : Host) (r : LedgerRow) (token : String) : Bool :=
  r.queueLaunchToken = some token &&
    if r.workerPid.truthy then h.hasLiveNonterminalWorker r
    else r.transport = "fleet-ssh" && (r.remoteLaunchReceipt.get "remote_pid").truthy &&
      !r.isTerminal

/-- `_fleet_terminal_accounted_record`. -/
def LedgerRow.fleetTerminalAccounted (r : LedgerRow) (token : String) : Bool :=
  r.transport = "fleet-ssh" && r.queueLaunchToken = some token &&
    r.state ≠ "launch_unconfirmed" && r.isTerminal

/-- The row accounts for the launch of the token. -/
def Host.accounts (h : Host) (token : String) (r : LedgerRow) : Bool :=
  h.hasWorkerRecord r token || r.fleetTerminalAccounted token

/-- The claim is unlinked, the last write of a transaction. -/
def RecoveryWorld.clear (w : RecoveryWorld) (c : ClaimPath) : Outcome RecoveryAction :=
  if w.faults.claimUnlink then ⟨[], .pending⟩ else ⟨[.unlink (.claim c)], .cleared⟩

/-- `_positive_live_carrier_cleanup_result` of a recovery. -/
def RecoveryWorld.positiveCleanup (w : RecoveryWorld) (d : Disk) (seen : Reading)
    (c : ClaimPath) : Outcome RecoveryAction :=
  match given seen.entry.queueLaunchToken with
  | none => ⟨[], .pending⟩
  | some token =>
    if seen.entry.dispatchId = "" ∨ ¬ seen.row.any (seen.host.accounts token) ∨
        ¬ w.queueLock then ⟨[], .pending⟩
    else
      match d.file (.claim c) with
      | some (.entry fresh) =>
        let row := d.findRecord seen.entry.dispatchId
        if w.host.classifyReconciliationAdmission (d.findRecord fresh.dispatchId) fresh 0 ∉
            [PreAdmitClass.live, PreAdmitClass.remoteAuthorityRequired] then ⟨[], .pending⟩
        else if fresh.queueLaunchToken ≠ some token ∨ ¬ row.any (w.host.accounts token) then
          ⟨[], .pending⟩
        else if ¬ isTaskLinked fresh row ∧ ¬ row.any w.host.hasLiveNonterminalWorker then
          ⟨[], .pending⟩
        else w.clear c
      | _ => ⟨[], .pending⟩

/-! ### Orphan stamps -/

/-- `_entry_with_record_identity` that prefers the row. -/
def QueueEntry.preferringRecord (e : QueueEntry) (r : LedgerRow) : QueueEntry :=
  if e.ofOtherLaunch r then { e with queueLaunchToken := r.queueLaunchToken }
  else
    { e with
      queueWorkerPid := if r.workerPid = .null then e.queueWorkerPid else r.workerPid
      queueWorkerIdentity :=
        if r.workerIdentity = .null then e.queueWorkerIdentity else r.workerIdentity
      queueWorkerPgid := if r.workerPgid = .null then e.queueWorkerPgid else r.workerPgid
      queueLaunchToken := r.queueLaunchToken.or e.queueLaunchToken }

/-- `_stamp_ledger_orphan_first_seen`; no value where the row stays unstamped. -/
def RecoveryWorld.stampRow (w : RecoveryWorld) (begun : QueueEntry) (r : LedgerRow)
    (admission : PreAdmitClass) (stamp : Stamp) : Option (List DiskWrite) :=
  if r.orphanFirstSeenAt.given then some []
  else if r.Unreadable ∨ r.isTerminal then none
  else
    let probe := begun.preferringRecord r
    if ¬ w.stillValid begun probe ∨
        w.host.classifyReconciliationAdmission (some r) probe 0 ≠ admission ∨ w.faults.rowWrite then
      none
    else some [.putRow { r with orphanFirstSeenAt := stamp }]

/-- The claim's stamp, on the row that has none yet. -/
def RecoveryWorld.carryStamp (w : RecoveryWorld) (d : Disk) (begun e : QueueEntry)
    (admission : PreAdmitClass) : Option (List DiskWrite) :=
  match (d.findRecord e.dispatchId).filter fun r =>
      e.orphanFirstSeenAt.given ∧ ¬ r.isTerminal ∧ ¬ r.orphanFirstSeenAt.given with
  | some r => w.stampRow begun r admission e.orphanFirstSeenAt
  | none => some []

/-- The claim without a time is stamped, and the row with it. -/
def RecoveryWorld.stampClaim (w : RecoveryWorld) (d : Disk) (begun : QueueEntry) (c : ClaimPath)
    (e : QueueEntry) (admission : PreAdmitClass) : List DiskWrite :=
  if w.faults.claimWrite then []
  else
    .put (.claim c) (e.seenOrphan w.host.now) ::
      ((d.findRecord e.dispatchId).bind fun r =>
        w.stampRow begun r admission (e.seenOrphan w.host.now).orphanFirstSeenAt).getD []

/-! ### The transaction -/

/-- `_claim_is_recovery_restorable`. -/
def QueueEntry.recoveryRestorable (e : QueueEntry) (row : Option LedgerRow) : Bool :=
  e.dispatchArgv ≠ [] && recoveryCount e.claimRecoveryCount < maxClaimRecoveryRequeues &&
    (e.preSpawn || e.preWorker && row.any LedgerRow.capacityRefusal)

/-- The reason a claim that is not restored ends with. -/
def QueueEntry.endReason (e : QueueEntry) (reason : String) : String :=
  if e.preWorker ∧ maxClaimRecoveryRequeues ≤ recoveryCount e.claimRecoveryCount then
    "claim_recovery_exhausted"
  else reason

/-- The claim is not restored: it is quarantined, cleared beside its queued envelope, or
terminalized. -/
def RecoveryWorld.endClaim (w : RecoveryWorld) (d : Disk) (begun : QueueEntry) (c : ClaimPath)
    (e : QueueEntry) (row : Option LedgerRow) (reason : String) (stale : Seconds) :
    Outcome RecoveryAction :=
  if ¬ isTaskLinked e row then w.quarantineOr d c e row (reason ++ "_unlinked") stale
  else
    match d.file (.envelope c.stem) with
    | some (.entry t) =>
      if t.state = "queued" ∧ t.dispatchId = e.dispatchId then w.clear c else ⟨[], .pending⟩
    | some _ => ⟨[], .pending⟩
    | none =>
      let commit := w.commitClaimTerminal d begun e (e.endReason reason) none
      if commit.result.isSome then (w.clear c).following commit.script
      else ⟨commit.script, .pending⟩

/-- A restore that ended in a decision: the claim ends as the decision says. -/
def RecoveryWorld.endDecided (w : RecoveryWorld) (d : Disk) (begun : QueueEntry) (c : ClaimPath)
    (e : QueueEntry) (row : Option LedgerRow) (decision : CompletionDecision) (reason : String)
    (stale : Seconds) : Outcome RecoveryAction :=
  if ¬ isTaskLinked e row then
    w.quarantineOr d c e row (reason ++ "_unlinked_restore_blocked") stale
  else
    let commit := w.commitClaimTerminal d begun e decision.reason (some decision.state)
    if commit.result.isSome then
      ⟨commit.script ++ (if w.faults.claimUnlink then [] else [.unlink (.claim c)]), .cleared⟩
    else ⟨commit.script, .pending⟩

/-- The claim goes back into the queue, or ends. -/
def RecoveryWorld.restoreOrEnd (w : RecoveryWorld) (d : Disk) (begun : QueueEntry)
    (c : ClaimPath) (e : QueueEntry) (reason : String) (stale : Seconds) :
    Outcome RecoveryAction :=
  let row := d.findRecord e.dispatchId
  if e.recoveryRestorable row ∧ (isTaskLinked e row ∨ row.any LedgerRow.capacityRefusal ∨
      e.preSpawn ∧ row.any LedgerRow.restorablePrelaunch) then
    let restore := w.commitRestore d begun c e true
    match restore.result with
    | .restored => ⟨restore.script, .restored⟩
    | .decided decision =>
      (w.endDecided (d.after restore.script) begun c e row decision reason stale).following
        restore.script
    | .nothing =>
      (w.endClaim (d.after restore.script) begun c e row reason stale).following restore.script
  else w.endClaim d begun c e row reason stale

/-- The claim is the tombstone of a dispatch whose end the row has. -/
def boundEnd (e : QueueEntry) (r : LedgerRow) : Prop :=
  r.isTerminal = true ∧ r.restorablePrelaunch = false ∧ completionAuthorityTokenBind e r = .same

instance (e : QueueEntry) (r : LedgerRow) : Decidable (boundEnd e r) :=
  inferInstanceAs (Decidable (_ ∧ _ ∧ _))

/-- The claim is old enough: it goes where its row, the completion authority and its own
state say. -/
def RecoveryWorld.settle (w : RecoveryWorld) (d : Disk) (begun : QueueEntry) (c : ClaimPath)
    (e : QueueEntry) (reason : String) (stale : Seconds) : Outcome RecoveryAction :=
  let row := d.findRecord e.dispatchId
  if row.any fun r => boundEnd e r then
    if isTaskLinked e row then w.clear c
    else w.quarantineOr d c e row (reason ++ "_unlinked_terminal") stale
  else
    match ((w.authorityOn d).entryCompletionAuthority e row {}).filter
        CompletionDecision.blocksRestore with
    | some decision =>
      if decision.state = "deferred" then ⟨w.deferClaim c e decision, .pending⟩
      else
        let commit := w.commitClaimTerminal d begun e decision.reason (some decision.state)
        if commit.result.isNone then ⟨commit.script, .pending⟩
        else if isTaskLinked e row then (w.clear c).following commit.script
        else
          let d := d.after commit.script
          (w.quarantineOr d c e (d.findRecord e.dispatchId) (reason ++ "_unlinked_completion")
            stale).following commit.script
    | none => w.restoreOrEnd d begun c e reason stale

/-- The claim's age decides whether it is taken up now. -/
def RecoveryWorld.reconcileHeld (w : RecoveryWorld) (d : Disk) (begun : QueueEntry)
    (c : ClaimPath) (e : QueueEntry) (admission : PreAdmitClass) (reason : String)
    (stale : Seconds) : Outcome RecoveryAction :=
  match w.carryStamp d begun e admission with
  | none => ⟨[], .pending⟩
  | some carried =>
    let d := d.after carried
    match e.launchAgeStamp with
    | none =>
      if admission = .staleNoSpawn ∧ stale ≤ 0 then
        (w.settle d begun c e reason stale).following carried
      else ⟨carried ++ w.stampClaim d begun c e admission, .pending⟩
    | some stamp =>
      if ageAt w.host.now stamp < max 0 stale then ⟨carried, .pending⟩
      else (w.settle d begun c e reason stale).following carried

/-- `_reconcile_claim_transaction`, of a claim as it was read before the locks were taken. -/
def RecoveryWorld.reconcile (w : RecoveryWorld) (d : Disk) (seen : Reading) (c : ClaimPath)
    (reason : String) (stale : Seconds) : Outcome RecoveryAction :=
  let admission := seen.host.classifyReconciliationAdmission seen.row seen.entry stale
  if admission = .live ∨ admission = .remoteAuthorityRequired then w.positiveCleanup d seen c
  else if admission.admitted = false ∨ w.begins = false then ⟨[], .pending⟩
  else
    match d.file (.claim c) with
    | some (.entry fresh) =>
      if ¬ w.stillValid seen.entry fresh ∨
          w.host.classifyReconciliationAdmission (d.findRecord fresh.dispatchId) fresh stale ≠
            admission then ⟨[], .pending⟩
      else w.reconcileHeld d seen.entry c fresh admission reason stale
    | _ => ⟨[], .pending⟩

/-! ### The drain that made the claim -/

/-- `_restore_claim_if_incomplete`, of the drain's own claim as it was read before the locks
were taken. -/
def RecoveryWorld.restoreIfIncomplete (w : RecoveryWorld) (d : Disk) (seen : Reading)
    (c : ClaimPath) (own : QueueEntry) (stale : Seconds) : Outcome RestoreResult :=
  let admission := seen.host.classifyReconciliationAdmission seen.row seen.entry 0
  if seen.entry.queueLaunchToken ≠ own.queueLaunchToken ∨ admission.admitted = false ∨
      w.begins = false then ⟨[], .nothing⟩
  else
    match d.file (.claim c) with
    | some (.entry fresh) =>
      if fresh.queueLaunchToken ≠ own.queueLaunchToken ∨ ¬ w.stillValid seen.entry fresh ∨
          w.host.classifyReconciliationAdmission (d.findRecord fresh.dispatchId) fresh 0 ≠
            admission then ⟨[], .nothing⟩
      else
        let restore := w.commitRestore d seen.entry c fresh false
        match restore.result with
        | .decided decision =>
          if decision.state = "deferred" then restore
          else
            let d := d.after restore.script
            let row := d.findRecord fresh.dispatchId
            if ¬ isTaskLinked fresh row then
              let parked := w.quarantineOrphan d c fresh row
                "normal_restore_completion_unlinked" stale
              ⟨restore.script ++ parked.script,
                if parked.result then .decided { decision with state := "quarantined" }
                else .nothing⟩
            else
              let commit := w.commitClaimTerminal d seen.entry fresh decision.reason
                (some decision.state)
              match commit.result with
              | none => ⟨restore.script ++ commit.script, .nothing⟩
              | some durable =>
                ⟨restore.script ++ commit.script ++
                    (if w.faults.claimUnlink then [] else [.unlink (.claim c)]),
                  .decided { decision with state := durable }⟩
        | _ => restore
    | _ => ⟨[], .nothing⟩

/-- `_DrainClaimGuard.__exit__` that releases the claim: only before a worker. -/
def RecoveryWorld.release (w : RecoveryWorld) (d : Disk) (seen : Reading) (c : ClaimPath)
    (own : QueueEntry) (stale : Seconds) : List DiskWrite :=
  if seen.entry.preWorker then (w.restoreIfIncomplete d seen c own stale).script else []

/-- The first part of `_terminalize_pre_worker_launch_failure`: the row counts the
failure. -/
def RecoveryWorld.countFailure (w : RecoveryWorld) (d : Disk) (id reason : String)
    (failures : ℕ) : List DiskWrite :=
  match (d.findRecord id).filter fun r => ¬ r.Unreadable ∧ w.faults.rowWrite = false with
  | some r =>
    [.putRow { r with
      others := [("launch_pre_worker_failure_count", .int failures),
        ("launch_fail_reason", .str reason)] ++ r.others }]
  | none => []

/-- The second part, `_finish_ledger`: the dispatch fails. -/
def RecoveryWorld.finishFailed (w : RecoveryWorld) (d : Disk) (id reason : String) :
    List DiskWrite :=
  match (d.findRecord id).filter fun r => ¬ r.Unreadable with
  | some r =>
    (w.commitEnd (r.finished "failed" (.str reason)
      (w.winner id (terminalStateFor "failed" (some reason)))) "failed").script
  | none => []

/-- The last part, `_mark_claim_failed_locked`: the claim becomes a failed one, also where the
ledger has no row. -/
def RecoveryWorld.failClaim (w : RecoveryWorld) (d : Disk) (c : ClaimPath)
    (observed : QueueEntry) : List DiskWrite :=
  let fresh :=
    match d.file (.claim c) with
    | some (.entry e) => e
    | _ => observed
  if fresh.queueLaunchToken ≠ observed.queueLaunchToken ∨ w.faults.claimWrite then []
  else
    .put (.failed c) { fresh with state := "failed" } ::
      (if w.faults.claimUnlink then [] else [.unlink (.claim c)])

end GoalFlight.Dispatch
