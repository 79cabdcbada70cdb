import GoalFlight.Capacity.Grant

/-!
# Capacity: from the reservation to the worker

A launcher takes its lease from a reservation to a worker: it marks the handoff, attaches the worker
it spawned or says that it spawned none, moves a reservation to another account, and hands a worker
that outlives it its own lease.  Each call changes one lease under the state lock.

`attach_worker_to_capacity_lease` and `detach_lease_to_worker` write into whatever lease has the id.
`running_worker_counted` names what a run must avoid for a live worker to be counted.
-/

namespace GoalFlight.Capacity

open Relational

/-! ### The calls of a launcher -/

/-- What a launcher's call makes of the lease it names, and what it answers. -/
structure LeaseUpdate where
  answer : CapacityLease → Bool
  update : CapacityLease → CapacityLease
  leaseId_update : ∀ l, (update l).leaseId = l.leaseId

/-- A call under the state lock: without an id or a lease it answers no. -/
def CapacityState.write (s : CapacityState) (leaseId : Option String) (u : LeaseUpdate) :
    Bool × CapacityState :=
  match given leaseId with
  | none => (false, s)
  | some id =>
    match KeyedTable.get? s.leases id with
    | none => (false, s)
    | some l =>
      (u.answer l, { s with
        leases := KeyedTable.modify s.leases (fun r => if r.leaseId = id then u.update r else r)
          (by
            intro r
            split
            · exact u.leaseId_update r
            · rfl) })

/-- `mark_lease_spawning`. -/
def markLeaseSpawning : LeaseUpdate where
  answer l := l.Active ∧ (l.launchState ∈ [none, some "reserved"] ∨
    l.launchState = some "spawning")
  update l := if l.Active ∧ l.launchState ∈ [none, some "reserved"] then
    { l with launchState := some "spawning" } else l
  leaseId_update l := by
    split
    · rfl
    · rfl

/-- `mark_lease_spawn_failed`. -/
def markLeaseSpawnFailed : LeaseUpdate where
  answer l := l.Active ∧ l.workerPid = none ∧
    (l.launchState ∈ [some "spawning", some "reserved"] ∨ l.launchState = some "spawn_failed")
  update l := if l.Active ∧ l.workerPid = none ∧
      l.launchState ∈ [some "spawning", some "reserved"] then
    { l with launchState := some "spawn_failed" } else l
  leaseId_update l := by
    split
    · rfl
    · rfl

/-- `rebind_capacity_lease_account`, for an account that is not blank. -/
def rebindLeaseAccount (account : String) : LeaseUpdate where
  answer l := l.Active ∧ l.workerPid = none ∧ l.launchState = some "reserved"
  update l := if l.Active ∧ l.workerPid = none ∧ l.launchState = some "reserved" then
    { l with account := account } else l
  leaseId_update l := by
    split
    · rfl
    · rfl

/-- `record_attached_worker`.  A start token that cannot be read leaves no identity. -/
def Host.recordAttachedWorker (h : Host) (workerPid : ℤ) (workerPgid : Option ℤ) :
    LeaseUpdate where
  answer _ := true
  update l := { l with
    workerPid := some workerPid
    workerPgid := (workerPgid.filter (1 < ·)).or l.workerPgid
    launchState := some "attached"
    workerIdentity := h.processIdentity (some workerPid) }
  leaseId_update _ := rfl

/-- `detach_lease_to_worker`, for a pid that is not zero. -/
def Host.detachLease (h : Host) (workerPid : ℤ) : LeaseUpdate where
  answer _ := true
  update l := { l with
    workerPid := some workerPid
    workerIdentity := h.processIdentity (some workerPid)
    controllerPid := some workerPid
    controllerIdentity := h.processIdentity (some workerPid)
    launchState := some "attached" }
  leaseId_update _ := rfl

/-! ### Runs -/

/-- A call that takes the state lock. -/
inductive LeaseCall
  | acquire (i : Installation) (pressure : List PressureEntry) (args : AcquireArgs) (lane : Lane)
  | markSpawning (leaseId : Option String)
  | markSpawnFailed (leaseId : Option String)
  | attachWorker (leaseId : Option String) (workerPid : ℤ) (workerPgid : Option ℤ)
  | detachToWorker (leaseId : Option String) (workerPid : ℤ)
  | rebindAccount (leaseId account : Option String)
  | prune
  | reclaimStale (state reason : String) (includeUnknownClaimant : Bool)
  | releaseTerminal (dispatchId state : String)
  | release (args : ReleaseArgs)

/-- The state it leaves. -/
def LeaseCall.run (h : Host) (s : CapacityState) : LeaseCall → CapacityState
  | .acquire i pressure args lane => (h.cmdAcquire i pressure args lane s).2
  | .markSpawning leaseId => (s.write leaseId markLeaseSpawning).2
  | .markSpawnFailed leaseId => (s.write leaseId markLeaseSpawnFailed).2
  | .attachWorker leaseId workerPid workerPgid =>
    (s.write leaseId (h.recordAttachedWorker workerPid workerPgid)).2
  | .detachToWorker leaseId workerPid =>
    if workerPid = 0 then s else (s.write leaseId (h.detachLease workerPid)).2
  | .rebindAccount leaseId account =>
    if strip (account.getD "") = "" then s
    else (s.write leaseId (rebindLeaseAccount (strip (account.getD "")))).2
  | .prune => h.pruneState s
  | .reclaimStale state reason includeUnknownClaimant =>
    (h.reclaimStaleLeases s state reason includeUnknownClaimant).2
  | .releaseTerminal dispatchId state => h.releaseTerminalDispatch s dispatchId state
  | .release args => (h.cmdRelease s args).2

/-- The state after a run.  The host answers anew at each step. -/
def runCalls (s : CapacityState) : List (Host × LeaseCall) → CapacityState
  | [] => s
  | step :: rest => runCalls (step.2.run step.1 s) rest

/-- A property of every step of a run and the state it starts from. -/
def Along (P : Host → CapacityState → LeaseCall → Prop) (s : CapacityState) :
    List (Host × LeaseCall) → Prop
  | [] => True
  | step :: rest => P step.1 s step.2 ∧ Along P (step.2.run step.1 s) rest

/-- An active lease has the id. -/
def CapacityState.Counts (s : CapacityState) (leaseId : String) : Prop :=
  ∃ l ∈ s.activeLeases, l.leaseId = leaseId

instance (s : CapacityState) (leaseId : String) : Decidable (s.Counts leaseId) := by
  unfold CapacityState.Counts
  infer_instance

/-! ### Workers -/

/-- A process that runs: its pid, and the start token that tells it from others. -/
@[ext]
structure RunningWorker where
  pid : ℤ
  startToken : String

/-- The worker runs on the host.  A probe may fail, but it does not say that the pid is
absent, and it reads no other process's token. -/
def Host.Sees (h : Host) (w : RunningWorker) : Prop :=
  0 < w.pid ∧ h.pidLiveness w.pid ≠ some false ∧
    ∀ token ∈ h.processStartToken w.pid, token = w.startToken

/-- The token that is looked up for the worker's pid is another than the process has. -/
def Host.Mistakes (h : Host) (w : RunningWorker) (l : CapacityLease)
    (record : Option DispatchRecord) : Prop :=
  h.pidGenerationMatches (some w.pid) (l.workerView record) = some false

/-- The call finds the lease and writes the worker's pid into it. -/
def LeaseCall.Writes (s : CapacityState) (leaseId : String) (w : RunningWorker) :
    LeaseCall → Prop
  | .attachWorker named workerPid _ =>
    given named = some leaseId ∧ workerPid = w.pid ∧ ∃ l ∈ s.leases, l.leaseId = leaseId
  | .detachToWorker named workerPid =>
    given named = some leaseId ∧ workerPid = w.pid ∧ ∃ l ∈ s.leases, l.leaseId = leaseId
  | _ => False

/-- An operator, or the lease's own worker or claimant, releases it. -/
def LeaseCall.Releases (h : Host) (l : CapacityLease) : LeaseCall → Prop
  | .release args => args.leaseId = l.leaseId ∧ (args.operatorConfirmed = true ∨
      h.releaseCallerOwnsLease args.callerPid l (h.readRecord l.dispatchId) = true)
  | _ => False

/-- The call gives the lease of the worker to another: it is granted under its id, or
writes another pid into it. -/
def LeaseCall.TakesOver (h : Host) (s : CapacityState) (l : CapacityLease) (w : RunningWorker) :
    LeaseCall → Prop
  | .acquire i pressure args lane =>
    args.grantedId = l.leaseId ∧ h.Admits i pressure args lane s
  | .attachWorker named workerPid _ => given named = some l.leaseId ∧ workerPid ≠ w.pid
  | .detachToWorker named workerPid =>
    given named = some l.leaseId ∧ workerPid ≠ 0 ∧ workerPid ≠ w.pid
  | _ => False

/-- The call checks the worker of the lease against another process's token. -/
def LeaseCall.Misreads (h : Host) (l : CapacityLease) (w : RunningWorker) : LeaseCall → Prop
  | .acquire .. => h.Mistakes w l none ∨ h.Mistakes w l (h.dispatchRecordForLease l.dispatchId)
  | .prune => h.Mistakes w l none
  | .reclaimStale .. => h.Mistakes w l (h.dispatchRecordForLease l.dispatchId)
  | .releaseTerminal dispatchId _ =>
    l.dispatchId = some dispatchId ∧ h.Mistakes w l (h.dispatchRecordForLease (some dispatchId))
  | .release args => args.leaseId = l.leaseId ∧ h.Mistakes w l (h.readRecord l.dispatchId)
  | _ => False

/-- The worker runs, and no operator and no owner releases its lease. -/
def Undisturbed (leaseId : String) (w : RunningWorker) (h : Host) (s : CapacityState)
    (call : LeaseCall) : Prop :=
  h.Sees w ∧ ∀ l ∈ s.leases, l.leaseId = leaseId → ¬ call.Releases h l

/-- The call leaves the lease to its worker, and does not take it for another process. -/
def Spares (leaseId : String) (w : RunningWorker) (h : Host) (s : CapacityState)
    (call : LeaseCall) : Prop :=
  ∀ l ∈ s.leases, l.leaseId = leaseId → ¬ call.TakesOver h s l w ∧ ¬ call.Misreads h l w

/-! ### A live worker is not taken for dead -/

section Live

variable {h : Host} {w : RunningWorker} {l : CapacityLease} {record : Option DispatchRecord}

theorem CapacityLease.workerView_workerPid {pid : ℤ} (hpid : l.workerPid = some pid)
    (record : Option DispatchRecord) : (l.workerView record).workerPid = some pid := by
  cases record with
  | none => exact hpid
  | some r =>
    show l.workerPid.or r.workerPid = some pid
    rw [hpid]
    rfl

theorem Host.Sees.probe (hsees : h.Sees w) : h.probePidLiveness (some w.pid) ≠ some false := by
  show (if w.pid ≤ 0 then some false else h.pidLiveness w.pid) ≠ some false
  rw [if_neg (not_le.mpr hsees.1)]
  exact hsees.2.1

section

variable (hsees : h.Sees w) (hpid : l.workerPid = some w.pid)
include hsees hpid

theorem Host.Sees.not_dead (hmatch : ¬ h.Mistakes w l record) :
    (h.workerIdentityLiveness (l.workerView record) none).1 ≠ .dead := by
  intro hdead
  obtain ⟨pid, hview, hcase⟩ := Host.dead_cases hdead
  cases (CapacityLease.workerView_workerPid hpid record).symm.trans hview
  rcases hcase with habsent | hmismatch
  · exact hsees.probe habsent
  · exact hmatch hmismatch

theorem Host.Sees.not_expires (hmatch : ¬ h.Mistakes w l none) (s : CapacityState) :
    ¬ h.Expires s l := by
  rintro ⟨-, -, hdead⟩
  unfold Host.leasePidsDead at hdead
  split at hdead
  · cases hdead
  · split at hdead
    · cases hdead
    · exact hsees.not_dead hpid hmatch (of_decide_eq_true hdead).1

theorem Host.Sees.not_terminalWorkerGone (hmatch : ¬ h.Mistakes w l record) :
    h.terminalWorkerGone l record = false := by
  have hview := CapacityLease.workerView_workerPid hpid record
  unfold Host.terminalWorkerGone
  simp only
  rw [if_neg (by simp [hview]), if_pos (hsees.not_dead hpid hmatch)]

theorem Host.Sees.not_stale (hmatch : ¬ h.Mistakes w l (h.dispatchRecordForLease l.dispatchId))
    (s : CapacityState) :
    h.staleLease s l = false := by
  have hview := CapacityLease.workerView_workerPid hpid (h.dispatchRecordForLease l.dispatchId)
  have hprelaunch : h.reclaimablePrelaunchLease l (h.dispatchRecordForLease l.dispatchId) =
      false := by
    unfold Host.reclaimablePrelaunchLease
    rw [if_pos (.inr (by simp [hpid]))]
  have hgone := hsees.not_terminalWorkerGone hpid hmatch
  have hdead := hsees.not_dead hpid hmatch
  unfold Host.staleLease
  simp only [hprelaunch, hgone, hview, hdead, Bool.false_eq_true, and_false, false_and, if_false,
    ne_eq, reduceCtorEq, not_false_eq_true, if_true, decide_false, ite_self]

theorem Host.Sees.not_reclaimed
    (hmatch : ¬ h.Mistakes w l (h.dispatchRecordForLease l.dispatchId)) (s : CapacityState)
    (includeUnknownClaimant : Bool) : l ∉ h.reclaimCandidates s includeUnknownClaimant := by
  intro hl
  rcases List.mem_append.mp (List.mem_filter.mp hl).1 with hstale | hunknown
  · have htrue := (List.mem_filter.mp hstale).2
    rw [hsees.not_stale hpid hmatch s] at htrue
    cases htrue
  · -- A lease with a worker has no unknown claimant.
    split at hunknown
    · have hmem := (List.mem_filter.mp (List.mem_filter.mp hunknown).1).2
      have hnone := (of_decide_eq_true hmem).2
      unfold Host.preAttachClaimantLiveness at hnone
      rw [if_pos (by simp [hpid])] at hnone
      cases hnone
    · cases hunknown

end

end Live

end GoalFlight.Capacity
