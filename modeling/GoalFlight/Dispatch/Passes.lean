import GoalFlight.Dispatch.Reconcile

/-!
# Dispatch: drain passes over one queue

Any number of drains, their children and other writers of the ledger act on one disk.  A step
is what one of them does under its locks, and may be cut short by a crash.

A drain stamps its claim with a launch token and with its own pid and identity.  The children
stamp the launch, the drain's guard releases the claim, and every pass takes up the claims it
finds.  Whether it takes up a claim is decided without the drain that made it:
`claimer_keeps_claim` says when a claim of a drain that still runs is left alone.
-/

namespace GoalFlight.Dispatch

open Json GoalFlight.Capacity

variable {carried : List DiskWrite}

/-! ### Steps -/

/-- What the child a drain launched writes on the claim. -/
inductive ChildStamp
  | launchStarted (time : Seconds) (pid : ℤ) (identity : Value)
  | spawnIntent (time : Seconds)
  | spawned (time : Seconds) (pid : ℤ) (identity pgid : Value)

/-- `_mark_queue_claim_launch_started`, `_mark_queue_claim_worker_spawn_intent` and
`_mark_queue_claim_worker_spawned`. -/
def QueueEntry.stampedBy (e : QueueEntry) : ChildStamp → QueueEntry
  | .launchStarted time pid identity =>
    { e with
      queueLaunchStarted := true
      queueLaunchStartedAt := .at time
      queueLauncherPid := .int pid
      queueLauncherIdentity := if identity.truthy then identity else e.queueLauncherIdentity }
  | .spawnIntent time =>
    { e with queueWorkerSpawnIntent := true, queueWorkerSpawnIntentAt := .at time }
  | .spawned time pid identity pgid =>
    { e with
      queueWorkerPid := .int pid
      queueWorkerSpawnedAt := .at time
      queueWorkerIdentity := identity
      queueWorkerPgid := if pgid.truthy then pgid else e.queueWorkerPgid }

/-- The claim as its drain stamps it. -/
def QueueEntry.claimedBy (e : QueueEntry) (token : String) (pid : ℤ) (identity : Value) :
    QueueEntry :=
  { e with
    state := "claimed"
    queueLaunchToken := some token
    queueClaimerPid := .int pid
    queueClaimerIdentity := if identity.isDict then identity else e.queueClaimerIdentity }

/-- A step of a drain pass, of a child or of another writer of the ledger. -/
inductive PassAction
  /-- `_claim_queue_entry` and the stamp, under the queue lock. -/
  | claim (c : ClaimPath) (token : String) (pid : ℤ) (identity : Value)
  | stamp (c : ClaimPath) (token : String) (s : ChildStamp)
  /-- The guard of the drain that made the claim. -/
  | release (w : RecoveryWorld) (seen : Reading) (c : ClaimPath) (own : QueueEntry)
      (stale : Seconds)
  | countFailure (w : RecoveryWorld) (id reason : String) (failures : ℕ)
  | finishFailed (w : RecoveryWorld) (id reason : String)
  | failClaim (w : RecoveryWorld) (c : ClaimPath) (observed : QueueEntry)
  /-- `_recover_claimed_queue_entries` of another pass, for one claim. -/
  | recover (w : RecoveryWorld) (seen : Reading) (c : ClaimPath) (stale : Seconds)
  /-- Another writer of the ledger. -/
  | record (r : LedgerRow)

/-- What is written of an envelope that does not read. -/
def unreadableClaim : QueueEntry := { state := "failed" }

/-- The writes of a claim: the rename, and the stamp or the mark of an unreadable envelope. -/
def claimScript (d : Disk) (c : ClaimPath) (token : String) (pid : ℤ) (identity : Value) :
    List DiskWrite :=
  match d.file (.envelope c.stem) with
  | none => []
  | some (.entry e) => [.claim c, .put (.claim c) (e.claimedBy token pid identity)]
  | some _ => [.claim c, .put (.failed c) unreadableClaim, .unlink (.claim c)]

/-- `_update_launch_owned_claim`: the stamp of a child that holds the claim's token. -/
def stampScript (d : Disk) (c : ClaimPath) (token : String) (s : ChildStamp) : List DiskWrite :=
  match d.file (.claim c) with
  | some (.entry e) =>
    if e.queueLaunchToken = some token then [.put (.claim c) (e.stampedBy s)] else []
  | _ => []

/-- The reason a claim is taken up for. -/
def QueueEntry.recoveryReason (e : QueueEntry) : String :=
  if e.preWorker then "stale_claim_pre_spawn" else "stale_claim_launch_token_lost"

/-- The reason of a launch that failed too often. -/
def launchFailure (reason : String) : String := "launch_attempt_limit_exceeded:" ++ reason

/-- The writes of a step. -/
def passScript (d : Disk) : PassAction → List DiskWrite
  | .claim c token pid identity => claimScript d c token pid identity
  | .stamp c token s => stampScript d c token s
  | .release w seen c own stale => w.release d seen c own stale
  | .countFailure w id reason failures => w.countFailure d id (launchFailure reason) failures
  | .finishFailed w id reason => w.finishFailed d id (launchFailure reason)
  | .failClaim w c observed => w.failClaim d c observed
  | .recover w seen c stale => (w.reconcile d seen c seen.entry.recoveryReason stale).script
  | .record r => [.putRow r]

/-- A step that gets some way through its writes. -/
abbrev passStep : Disk → PassAction × ℕ → Disk := Machine.cutStep Disk.write passScript

/-! ### A claim that looks abandoned -/

/-- The process a document names is alive: something has its pid, and did not start at
another time than the one recorded. -/
def Host.Alive (h : Host) (pidValue identity : Value) : Prop :=
  ∃ pid current, pidOf pidValue = some pid ∧ h.processIdentity pid = .running current ∧
    ¬ StartDiffers identity current

/-- **The claim looks abandoned**: it is of this host, its launcher and its worker are gone or
were never named, and one of them is gone, or the claim records nothing of a launch and its
newest time is old enough. -/
structure Host.LooksAbandoned (h : Host) (row : Option LedgerRow) (e : QueueEntry)
    (stale : Seconds) : Prop where
  here : ¬ ((e.withRecordIdentity row).isFleet row = true ∨
    (e.withRecordIdentity row).hasNode row = true)
  launcher : (h.launcherStatus e).1.idle
  worker : (h.workerStatus (e.withRecordIdentity row)).1.idle
  spawned : (e.withRecordIdentity row).workerSpawnIntent = true ∨
    (e.withRecordIdentity row).workerSpawned = true →
      (e.withRecordIdentity row).queueWorkerPid.truthy = true
  gone : (e.withRecordIdentity row).hasSeed = true →
    (h.launcherStatus e).1 = .dead ∨ (h.workerStatus (e.withRecordIdentity row)).1 = .dead
  old : (e.withRecordIdentity row).hasSeed = false →
    max 0 stale ≤ (e.withRecordIdentity row).launchAge h.now

/-- The claim's own newest time is old enough; a claim without one is taken up at once where
nothing has to be waited for. -/
def Host.OldEnough (h : Host) (row : Option LedgerRow) (e : QueueEntry) (stale : Seconds) :
    Prop :=
  match e.launchAgeStamp with
  | some stamp => max 0 stale ≤ ageAt h.now stamp
  | none => (e.withRecordIdentity row).hasSeed = false ∧ stale ≤ 0

/-- **A pass takes the claim up**: it gets the locks, the claim is the one it saw, looks
abandoned and is old enough. -/
structure RecoveryWorld.TakesUp (w : RecoveryWorld) (d : Disk) (seen : Reading)
    (e : QueueEntry) (stale : Seconds) : Prop where
  begins : w.begins = true
  valid : w.stillValid seen.entry e
  abandoned : w.host.LooksAbandoned (d.findRecord e.dispatchId) e stale
  oldEnough : w.host.OldEnough (d.findRecord e.dispatchId) e stale

variable {h : Host} {w : RecoveryWorld} {d : Disk} {c : ClaimPath} {e begun : QueueEntry}
  {r written : LedgerRow} {row : Option LedgerRow} {stale : Seconds} {seen : Reading}
  {admission : PreAdmitClass} {reason : String} {write : DiskWrite}

theorem Host.looksAbandoned_of_admitted
    (hadmitted : (h.classifyReconciliationAdmission row e stale).admitted = true) :
    h.LooksAbandoned row e stale := by
  obtain ⟨hhere, hlauncher, hworker, hspawned, hseed⟩ := Host.admitted_iff.mp hadmitted
  refine ⟨hhere, hlauncher, hworker, hspawned, ?_, ?_⟩
  · intro hsome
    rw [if_pos hsome] at hseed
    exact hseed
  · intro hnone
    rw [if_neg (by rw [hnone]; exact Bool.false_ne_true)] at hseed
    exact hseed

theorem Host.hasSeed_of_staleNoSpawn
    (hclass : h.classifyReconciliationAdmission row e stale = .staleNoSpawn) :
    (e.withRecordIdentity row).hasSeed = false := by
  unfold Host.classifyReconciliationAdmission at hclass
  dsimp only at hclass
  split at hclass
  · cases hclass
  split at hclass
  · cases hclass
  split at hclass
  · cases hclass
  split at hclass
  · cases hclass
  split at hclass
  · rename_i hseed
    exact Bool.eq_false_iff.mpr hseed
  · unfold classOfDead at hclass
    split at hclass
    · cases hclass
    · split at hclass <;> cases hclass

theorem Host.not_idle_of_alive {pidValue identity : Value} (halive : h.Alive pidValue identity) :
    ¬ (h.queueClaimIdentityStatus pidValue identity).1.idle := by
  obtain ⟨pid, current, hpid, hrunning, hsame⟩ := halive
  intro hidle
  cases hstatus : (h.queueClaimIdentityStatus pidValue identity).1 with
  | live =>
    rw [hstatus] at hidle
    exact hidle
  | indeterminate =>
    rw [hstatus] at hidle
    exact hidle
  | noPid =>
    unfold Host.queueClaimIdentityStatus at hstatus
    rw [hpid] at hstatus
    dsimp only at hstatus
    unfold claimIdentityOf at hstatus
    split at hstatus
    · cases hstatus
    · cases hstatus
    · cases hstatus
    · split at hstatus <;> cases hstatus
  | dead =>
    obtain ⟨pid', hpid', hgone⟩ := Host.provenGone_of_dead hstatus
    rw [hpid] at hpid'
    cases hpid'
    obtain habsent | ⟨current', hrunning', hdiffers⟩ := hgone
    · rw [hrunning] at habsent
      cases habsent
    · rw [hrunning] at hrunning'
      obtain rfl := Probe.running.inj hrunning'
      exact hsame hdiffers

/-! ### What a pass writes on a claim it does not take up -/

/-- **A write that leaves a claim to its drain**: the claim or its row is stamped with the
time it was first seen orphaned, or the claim is cleared because the ledger accounts for the
worker that was launched under its token. -/
inductive RecoveryWorld.Sparing (w : RecoveryWorld) (d : Disk) (c : ClaimPath) (e : QueueEntry) :
    DiskWrite → Prop
  | stamped : w.Sparing d c e (.put (.claim c) (e.seenOrphan w.host.now))
  | rowStamped (r : LedgerRow) (stamp : Stamp) (hrow : d.findRecord e.dispatchId = some r) :
      w.Sparing d c e (.putRow { r with orphanFirstSeenAt := stamp })
  | cleared (token id : String) (r : LedgerRow) (htoken : e.queueLaunchToken = some token)
      (hrow : d.findRecord id = some r) (haccounted : w.host.accounts token r = true) :
      w.Sparing d c e (.unlink (.claim c))

theorem sparing_of_mem_clear (hmem : write ∈ (w.clear c).script) : write = .unlink (.claim c) := by
  unfold RecoveryWorld.clear at hmem
  split at hmem
  · cases hmem
  · exact List.mem_singleton.mp hmem

theorem sparing_of_mem_positiveCleanup (hfile : d.file (.claim c) = some (.entry e))
    (hmem : write ∈ (w.positiveCleanup d seen c).script) : w.Sparing d c e write := by
  unfold RecoveryWorld.positiveCleanup at hmem
  split at hmem
  · cases hmem
  · rename_i token htoken
    split at hmem
    · cases hmem
    · rw [hfile] at hmem
      dsimp only at hmem
      split at hmem
      · cases hmem
      · split at hmem
        · cases hmem
        · rename_i haccounts
          rw [not_or, not_not, not_not] at haccounts
          obtain ⟨hsame, haccounts⟩ := haccounts
          obtain ⟨r, hr, haccounts⟩ := (Option.any_eq_true _ _).mp haccounts
          split at hmem
          · cases hmem
          · rw [sparing_of_mem_clear hmem]
            exact .cleared token seen.entry.dispatchId r hsame hr haccounts

theorem mem_stampRow {script : List DiskWrite} {stamp : Stamp}
    (hscript : w.stampRow begun r admission stamp = some script) (hmem : write ∈ script) :
    write = .putRow { r with orphanFirstSeenAt := stamp } ∧ r.orphanFirstSeenAt.given = false := by
  unfold RecoveryWorld.stampRow at hscript
  split at hscript
  · cases hscript
    cases hmem
  · rename_i hunstamped
    split at hscript
    · cases hscript
    · dsimp only at hscript
      split at hscript
      · cases hscript
      · cases hscript
        exact ⟨List.mem_singleton.mp hmem, Bool.eq_false_iff.mpr hunstamped⟩

theorem carryStamp_cases (hcarried : w.carryStamp d begun e admission = some carried) :
    carried = [] ∨ ∃ r, d.findRecord e.dispatchId = some r ∧ e.orphanFirstSeenAt.given = true ∧
      carried = [.putRow { r with orphanFirstSeenAt := e.orphanFirstSeenAt }] := by
  unfold RecoveryWorld.carryStamp at hcarried
  split at hcarried
  · rename_i r hr
    obtain ⟨hr, hwants⟩ := Option.filter_eq_some_iff.mp hr
    unfold RecoveryWorld.stampRow at hcarried
    split at hcarried
    · exact .inl (Option.some.inj hcarried).symm
    · split at hcarried
      · cases hcarried
      · dsimp only at hcarried
        split at hcarried
        · cases hcarried
        · exact .inr ⟨r, hr, (of_decide_eq_true hwants).1, (Option.some.inj hcarried).symm⟩
  · exact .inl (Option.some.inj hcarried).symm

theorem sparing_of_mem_carryStamp (hcarried : w.carryStamp d begun e admission = some carried)
    (hmem : write ∈ carried) :
    w.Sparing d c e write := by
  obtain rfl | ⟨r, hr, -, rfl⟩ := carryStamp_cases hcarried
  · cases hmem
  · obtain rfl := List.mem_singleton.mp hmem
    exact .rowStamped r _ hr

theorem stamp_of_stampedRow {id : String} {r' : LedgerRow} {stamp : Stamp}
    (hr : d.findRecord id = some r)
    (hrow : (d.after [.putRow { r with orphanFirstSeenAt := stamp }]).findRecord id = some r') :
    r'.orphanFirstSeenAt = stamp := by
  obtain ⟨rfl, hne⟩ := Disk.dispatchId_of_findRecord hr
  have hlanded := hrow.symm.trans
    (Disk.findRecord_putRow_self d (r := { r with orphanFirstSeenAt := stamp }) hne)
  rw [Option.some.inj hlanded]
  unfold LedgerRow.keepingEnd
  split <;> rfl

theorem sparing_of_mem_stampClaim (hcarried : w.carryStamp d begun e admission = some carried)
    (hmem : write ∈ w.stampClaim (d.after carried) begun c e admission) :
    w.Sparing d c e write := by
  unfold RecoveryWorld.stampClaim at hmem
  split at hmem
  · cases hmem
  obtain rfl | hmem := List.mem_cons.mp hmem
  · exact .stamped
  cases hrow : (d.after carried).findRecord e.dispatchId with
  | none =>
    rw [hrow] at hmem
    cases hmem
  | some r' =>
    rw [hrow] at hmem
    change write ∈ (w.stampRow begun r' admission
      (e.seenOrphan w.host.now).orphanFirstSeenAt).getD [] at hmem
    cases hscript : w.stampRow begun r' admission (e.seenOrphan w.host.now).orphanFirstSeenAt with
    | none =>
      rw [hscript] at hmem
      cases hmem
    | some script =>
      rw [hscript] at hmem
      obtain ⟨rfl, hunstamped⟩ := mem_stampRow hscript hmem
      obtain rfl | ⟨r, hr, hgiven, rfl⟩ := carryStamp_cases hcarried
      · exact .rowStamped r' _ hrow
      · rw [stamp_of_stampedRow hr hrow, hgiven] at hunstamped
        cases hunstamped

/-- **A pass that does not take the claim up spares it.** -/
theorem sparing_of_not_takesUp (hfile : d.file (.claim c) = some (.entry e))
    (hleaves : ¬ w.TakesUp d seen e stale)
    (hmem : write ∈ (w.reconcile d seen c reason stale).script) : w.Sparing d c e write := by
  unfold RecoveryWorld.reconcile at hmem
  dsimp only at hmem
  split at hmem
  · exact sparing_of_mem_positiveCleanup hfile hmem
  split at hmem
  · cases hmem
  rename_i hbegins
  rw [not_or] at hbegins
  rw [hfile] at hmem
  dsimp only at hmem
  split at hmem
  · cases hmem
  rename_i hsame
  rw [not_or, not_not, not_not] at hsame
  obtain ⟨hvalid, hclass⟩ := hsame
  have hadmitted : (w.host.classifyReconciliationAdmission (d.findRecord e.dispatchId) e
      stale).admitted = true := by
    rw [hclass]
    exact (Bool.not_eq_false _).mp hbegins.1
  have hyoung : ¬ w.host.OldEnough (d.findRecord e.dispatchId) e stale := by
    intro hold
    exact hleaves ⟨(Bool.not_eq_false _).mp hbegins.2, hvalid,
      Host.looksAbandoned_of_admitted hadmitted, hold⟩
  unfold RecoveryWorld.reconcileHeld at hmem
  split at hmem
  · cases hmem
  rename_i carried hcarried
  dsimp only at hmem
  split at hmem
  · rename_i hstamp
    split at hmem
    · rename_i hnow
      refine absurd ?_ hyoung
      unfold Host.OldEnough
      rw [hstamp]
      exact ⟨Host.hasSeed_of_staleNoSpawn (hclass.trans hnow.1), hnow.2⟩
    · obtain hmem | hmem := List.mem_append.mp hmem
      · exact sparing_of_mem_carryStamp hcarried hmem
      · exact sparing_of_mem_stampClaim hcarried hmem
  · rename_i stamp hstamp
    split at hmem
    · exact sparing_of_mem_carryStamp hcarried hmem
    · rename_i hold
      refine absurd ?_ hyoung
      unfold Host.OldEnough
      rw [hstamp]
      exact not_lt.mp hold

end GoalFlight.Dispatch
