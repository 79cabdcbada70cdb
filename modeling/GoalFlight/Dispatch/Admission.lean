import GoalFlight.Dispatch.Documents

/-!
# Dispatch: which claims another pass may take up

A pass that finds a claim in the queue directory asks `classify_reconciliation_admission`
whether anything still works on it.  The answer looks at the launcher and the worker the
claim names, and for a claim that names neither at its age; it does not look at the process
that made the claim.

`Host.admitted_iff` says which claims are admitted.
-/

namespace GoalFlight.Dispatch

open Json GoalFlight.Capacity

/-! ### What a claim says of its launch -/

/-- `_queue_claim_launch_started`. -/
def QueueEntry.launchStarted (e : QueueEntry) : Bool :=
  e.queueLaunchStarted || e.queueLaunchStartedAt.given

/-- `_queue_claim_worker_spawned`. -/
def QueueEntry.workerSpawned (e : QueueEntry) : Bool :=
  e.queueWorkerPid.truthy || e.queueWorkerSpawnedAt.given

/-- `_queue_claim_worker_spawn_intent`. -/
def QueueEntry.workerSpawnIntent (e : QueueEntry) : Bool :=
  e.queueWorkerSpawnIntent || e.queueWorkerSpawnIntentAt.given

/-- `_entry_pre_spawn`. -/
def QueueEntry.preSpawn (e : QueueEntry) : Bool :=
  !(e.launchStarted || e.workerSpawnIntent || e.workerSpawned)

/-- `_entry_pre_worker`. -/
def QueueEntry.preWorker (e : QueueEntry) : Bool := !(e.workerSpawnIntent || e.workerSpawned)

/-- `has_seed`: something of a launch is recorded. -/
def QueueEntry.hasSeed (e : QueueEntry) : Bool :=
  e.launchStarted || e.workerSpawnIntent || e.queueWorkerSpawnedAt.given ||
    e.queueLauncherPid.truthy || e.queueWorkerPid.truthy || e.queueWorkerPgid.truthy

/-- `_launch_age_timestamp_s`: the newest time of the launch, never `updated_at`. -/
def QueueEntry.launchAgeStamp (e : QueueEntry) : Option Seconds :=
  ([e.queueWorkerSpawnedAt, e.queueWorkerSpawnIntentAt, e.queueLaunchStartedAt, e.startedAt,
    e.createdAt, e.orphanFirstSeenAt, e.requestStartedAt, e.requestCreatedAt].filterMap
      Stamp.seconds?).max?

/-- The age of a claim; without a time it is new. -/
def QueueEntry.launchAge (e : QueueEntry) (now : Seconds) : Seconds :=
  match e.launchAgeStamp with
  | some stamp => max 0 (now - stamp)
  | none => 0

/-- `_claim_recovery_count`, and the same of a row. -/
def recoveryCount (count : Value) : ℕ :=
  if count.truthy then (count.int?.getD 0).toNat else 0

/-- `MAX_CLAIM_RECOVERY_REQUEUES`. -/
def maxClaimRecoveryRequeues : ℕ := 1

/-! ### The row's part -/

/-- A field the row fills in. -/
def fillFrom (claim row : Value) : Value := if claim.truthy ∨ row = .null then claim else row

/-- The row is of another launch than the claim. -/
def QueueEntry.ofOtherLaunch (e : QueueEntry) (r : LedgerRow) : Prop :=
  (given e.queueLaunchToken).isSome ∧ r.queueLaunchToken ≠ none ∧
    r.queueLaunchToken ≠ e.queueLaunchToken

instance (e : QueueEntry) (r : LedgerRow) : Decidable (e.ofOtherLaunch r) :=
  inferInstanceAs (Decidable (_ ∧ _ ∧ _))

/-- `_entry_with_record_identity`: the row's worker, unless the row is of another launch. -/
def QueueEntry.withRecordIdentity (e : QueueEntry) (row : Option LedgerRow) : QueueEntry :=
  match row with
  | none => e
  | some r =>
    if e.ofOtherLaunch r then e
    else
      { e with
        queueWorkerPid := fillFrom e.queueWorkerPid r.workerPid
        queueWorkerIdentity := fillFrom e.queueWorkerIdentity r.workerIdentity
        queueWorkerPgid := fillFrom e.queueWorkerPgid r.workerPgid }

/-- The transports that run on another node. -/
def fleetTransports : List String := ["fleet", "fleet-ssh", "ssh", "remote"]

/-- `_entry_transport(…) == "fleet"`. -/
def QueueEntry.isFleet (e : QueueEntry) (row : Option LedgerRow) : Bool :=
  let raw := ([e.transport, row.map LedgerRow.transport, e.requestTransport, e.shape,
    e.requestShape].findSome? given).getD "bash"
  String.ofList (raw.toList.map Char.toLower) ∈ fleetTransports

/-- `_entry_node` is given. -/
def QueueEntry.hasNode (e : QueueEntry) (row : Option LedgerRow) : Bool :=
  ([e.node, row.bind LedgerRow.node, e.requestNode].findSome? given).isSome

/-! ### The classification -/

/-- `PreAdmitClass`. -/
inductive PreAdmitClass
  | live
  | indeterminate
  | confirmedDead
  | pidReused
  | staleNoSpawn
  | notStale
  | remoteAuthorityRequired
deriving DecidableEq

/-- `ADMISSION_DECISION` is `ADMIT_TO_GATE`. -/
def PreAdmitClass.admitted : PreAdmitClass → Bool
  | .confirmedDead | .pidReused | .staleNoSpawn => true
  | _ => false

/-- `_queue_claim_launcher_status`. -/
def Host.launcherStatus (h : Host) (e : QueueEntry) : ClaimIdentity × IdentityReason :=
  h.queueClaimIdentityStatus e.queueLauncherPid e.queueLauncherIdentity

/-- `_queue_claim_worker_status`. -/
def Host.workerStatus (h : Host) (e : QueueEntry) : ClaimIdentity × IdentityReason :=
  h.queueClaimIdentityStatus e.queueWorkerPid e.queueWorkerIdentity

/-- The class of a launch whose processes are known to be gone, or unknown. -/
def classOfDead (statuses : List (ClaimIdentity × IdentityReason)) : PreAdmitClass :=
  match statuses.filter fun status => status.1 = .dead with
  | [] => .indeterminate
  | dead => if dead.all fun status => status.2.isPidReused then .pidReused else .confirmedDead

/-- `classify_reconciliation_admission`, of a claim and the row of its dispatch. -/
def Host.classifyReconciliationAdmission (h : Host) (row : Option LedgerRow) (e : QueueEntry)
    (stale : Seconds) : PreAdmitClass :=
  let probe := e.withRecordIdentity row
  let launcher := h.launcherStatus probe
  let worker := h.workerStatus probe
  if probe.isFleet row ∨ probe.hasNode row then .remoteAuthorityRequired
  else if launcher.1 = .live ∨ worker.1 = .live then .live
  else if (probe.workerSpawnIntent ∨ probe.workerSpawned) ∧ ¬ probe.queueWorkerPid.truthy then
    -- A helper may be at work between the intent and the worker's pid.
    .indeterminate
  else if launcher.1 = .indeterminate ∨ worker.1 = .indeterminate then .indeterminate
  else if ¬ probe.hasSeed then
    if max 0 stale ≤ probe.launchAge h.now then .staleNoSpawn else .notStale
  else classOfDead [launcher, worker]

theorem admitted_classOfDead_iff {statuses : List (ClaimIdentity × IdentityReason)} :
    (classOfDead statuses).admitted = true ↔ ∃ status ∈ statuses, status.1 = .dead := by
  unfold classOfDead
  split
  · rename_i hnone
    constructor
    · intro hadmitted
      cases hadmitted
    · rintro ⟨status, hstatus, hdead⟩
      have hmem : status ∈ statuses.filter fun status => decide (status.1 = .dead) :=
        List.mem_filter.mpr ⟨hstatus, decide_eq_true hdead⟩
      rw [hnone] at hmem
      cases hmem
  · rename_i hsome
    constructor
    · intro _
      obtain ⟨status, hmem⟩ := List.exists_mem_of_ne_nil _ hsome
      obtain ⟨hstatus, hdead⟩ := List.mem_filter.mp hmem
      exact ⟨status, hstatus, of_decide_eq_true hdead⟩
    · intro _
      split <;> rfl

variable {h : Host} {row : Option LedgerRow} {e : QueueEntry} {stale : Seconds}

@[simp] theorem launcherStatus_withRecordIdentity :
    h.launcherStatus (e.withRecordIdentity row) = h.launcherStatus e := by
  unfold QueueEntry.withRecordIdentity
  split
  · rfl
  · split <;> rfl

/-- A process is not at work that is gone, or that no document names. -/
def ClaimIdentity.idle : ClaimIdentity → Prop
  | .dead | .noPid => True
  | _ => False

theorem ClaimIdentity.idle_iff {status : ClaimIdentity} :
    status.idle ↔ status ≠ .live ∧ status ≠ .indeterminate := by
  cases status <;> simp [ClaimIdentity.idle]

/-- **Which claims are admitted.**  The claim is of this host, neither its launcher nor its
worker is at work or undecided, an intent to spawn has a worker's pid, and one of the two is
proven gone; a claim that records nothing of a launch is admitted for its age. -/
theorem Host.admitted_iff :
    (h.classifyReconciliationAdmission row e stale).admitted = true ↔
      ¬ ((e.withRecordIdentity row).isFleet row = true ∨
        (e.withRecordIdentity row).hasNode row = true) ∧
      (h.launcherStatus e).1.idle ∧ (h.workerStatus (e.withRecordIdentity row)).1.idle ∧
      (((e.withRecordIdentity row).workerSpawnIntent = true ∨
        (e.withRecordIdentity row).workerSpawned = true) →
          (e.withRecordIdentity row).queueWorkerPid.truthy = true) ∧
      if (e.withRecordIdentity row).hasSeed = true then
        (h.launcherStatus e).1 = .dead ∨ (h.workerStatus (e.withRecordIdentity row)).1 = .dead
      else max 0 stale ≤ (e.withRecordIdentity row).launchAge h.now := by
  unfold Host.classifyReconciliationAdmission
  dsimp only
  rw [launcherStatus_withRecordIdentity, ClaimIdentity.idle_iff, ClaimIdentity.idle_iff]
  by_cases hremote : (e.withRecordIdentity row).isFleet row = true ∨
      (e.withRecordIdentity row).hasNode row = true
  · simp [hremote, PreAdmitClass.admitted]
  rw [if_neg hremote]
  by_cases hlive : (h.launcherStatus e).1 = .live ∨
      (h.workerStatus (e.withRecordIdentity row)).1 = .live
  · rw [if_pos hlive]
    obtain hlive | hlive := hlive <;> simp [hlive, PreAdmitClass.admitted]
  rw [if_neg hlive]
  rw [not_or] at hlive
  by_cases hcrossed : ((e.withRecordIdentity row).workerSpawnIntent = true ∨
      (e.withRecordIdentity row).workerSpawned = true) ∧
      ¬ (e.withRecordIdentity row).queueWorkerPid.truthy = true
  · rw [if_pos hcrossed]
    constructor
    · intro hadmitted
      cases hadmitted
    · rintro ⟨-, -, -, hpid, -⟩
      exact absurd (hpid hcrossed.1) hcrossed.2
  rw [if_neg hcrossed]
  have hpid : ((e.withRecordIdentity row).workerSpawnIntent = true ∨
      (e.withRecordIdentity row).workerSpawned = true) →
      (e.withRecordIdentity row).queueWorkerPid.truthy = true := by
    intro hspawn
    by_contra hmissing
    exact hcrossed ⟨hspawn, hmissing⟩
  by_cases hundecided : (h.launcherStatus e).1 = .indeterminate ∨
      (h.workerStatus (e.withRecordIdentity row)).1 = .indeterminate
  · rw [if_pos hundecided]
    obtain hundecided | hundecided := hundecided <;> simp [hundecided, PreAdmitClass.admitted]
  rw [if_neg hundecided]
  rw [not_or] at hundecided
  by_cases hseed : (e.withRecordIdentity row).hasSeed = true
  · rw [if_neg (not_not.mpr hseed), if_pos hseed]
    have hdead : (classOfDead [h.launcherStatus e,
        h.workerStatus (e.withRecordIdentity row)]).admitted = true ↔
        (h.launcherStatus e).1 = .dead ∨ (h.workerStatus (e.withRecordIdentity row)).1 = .dead := by
      rw [admitted_classOfDead_iff]
      simp
    rw [hdead]
    simp only [hremote, not_false_eq_true, true_and]
    exact ⟨fun hd => ⟨⟨hlive.1, hundecided.1⟩, ⟨hlive.2, hundecided.2⟩, hpid, hd⟩,
      fun hd => hd.2.2.2⟩
  · rw [if_pos hseed, if_neg hseed]
    constructor
    · intro hadmitted
      split at hadmitted
      · rename_i hage
        exact ⟨hremote, ⟨hlive.1, hundecided.1⟩, ⟨hlive.2, hundecided.2⟩, hpid, hage⟩
      · cases hadmitted
    · rintro ⟨-, -, -, -, hage⟩
      rw [if_pos hage]
      rfl

end GoalFlight.Dispatch
