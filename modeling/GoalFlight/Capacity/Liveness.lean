import GoalFlight.Capacity.State

/-!
# Capacity: is the holder of a lease alive?

The probes of `scripts/goalflight_capacity.py` answer yes, no or unknown, and a pid counts
as the recorded process only when its start token is the recorded one.  This module has
the predicates that combine a lease, its ledger record and the probes, as the source
combines them.
-/

namespace GoalFlight.Capacity

/-! ### Probes -/

/-- `_process_group_liveness`. -/
def Host.processGroupLiveness (h : Host) (pgid : Option ℤ) : Option Bool :=
  pgid.bind fun g => if g ≤ 1 then none else h.groupLiveness g

/-- `INDETERMINATE_LIVE_RETENTION_S`. -/
def indeterminateLiveRetention : Time := 7200

/-- `_indeterminate_retention_open`.  A lease without any clock starts its window with
this observation. -/
def Host.indeterminateRetentionOpen (h : Host) (l : CapacityLease) : Bool :=
  match l.accountedLiveUntil with
  | some until_ => h.now < until_
  | none =>
    match l.startedAt.or (l.expiresAt.or l.livenessUnknownSince) with
    | some origin => h.now < origin + indeterminateLiveRetention
    | none => true

/-- `_probe_pid_liveness`: a missing or invalid pid is confirmed dead. -/
def Host.probePidLiveness (h : Host) (pid : Option ℤ) : Option Bool :=
  match pid with
  | none => some false
  | some p => if p ≤ 0 then some false else h.pidLiveness p

/-- The start token of `_process_start_identity`. -/
def Host.processStartToken (h : Host) (pid : ℤ) : Option String :=
  if pid ≤ 0 then none else given (h.startToken pid)

/-! ### The recorded process -/

/-- The pids of a lease with their identities, in the order they are looked up. -/
def CapacityLease.roles (l : CapacityLease) : List (Option ℤ × Option ProcessIdentity) :=
  [(l.workerPid, l.workerIdentity), (l.controllerPid, l.controllerIdentity),
    (l.claimantPid, l.claimantIdentity)]

/-- `_lease_identity_for_pid`. -/
def CapacityLease.identityForPid (l : CapacityLease) (pid : ℤ) : Option ProcessIdentity :=
  l.roles.findSome? fun role => if role.1 = some pid then role.2 else none

/-- `_pid_generation_matches`: does the pid carry the recorded start token? -/
def Host.pidGenerationMatches (h : Host) (pid : Option ℤ) (l : CapacityLease) : Option Bool :=
  pid.bind fun p =>
    ((l.identityForPid p).bind fun i => given (some i.startToken)).bind fun expected =>
      (h.processStartToken p).map fun current => current = expected

/-- `_worker_lease_view`: the lease with the worker fields it lacks taken from the
record, each for itself. -/
def CapacityLease.workerView (l : CapacityLease) (record : Option DispatchRecord) :
    CapacityLease :=
  match record with
  | none => l
  | some r =>
    { l with
      workerPid := l.workerPid.or r.workerPid
      workerIdentity := l.workerIdentity.or r.workerIdentity
      workerPgid := l.workerPgid.or r.workerPgid }

/-- The verdict on a recorded process. -/
inductive Liveness
  | live
  | dead
  | unknown
deriving DecidableEq

/-- `worker_identity_liveness`, with its reason. -/
def Host.workerIdentityLiveness (h : Host) (l : CapacityLease)
    (record : Option DispatchRecord) : Liveness × String :=
  let worker := l.workerView record
  match worker.workerPid with
  | none => (.unknown, "no_worker_identity")
  | some pid =>
    match h.probePidLiveness (some pid) with
    | some false => (.dead, "pid_absent")
    | none => (.unknown, "worker_pid_probe_unavailable")
    | some true =>
      match h.pidGenerationMatches (some pid) worker with
      | some false => (.dead, "pid_reused_start_token")
      | none => (.unknown, "worker_start_token_unavailable")
      | some true => (.live, "worker_identity_match")

/-- `_lease_is_local`. -/
def Host.leaseIsLocal (h : Host) (s : CapacityState) (l : CapacityLease) : Bool :=
  match given l.machineId with
  | none => true
  | some recorded => recorded = h.machineId ∨ given s.machineId = some recorded

/-! ### What holds a slot -/

/-- `_pid_holds_capacity`. -/
def Host.pidHoldsCapacity (h : Host) (pid : Option ℤ) (l : CapacityLease) : Bool :=
  match h.probePidLiveness pid with
  | some true => h.pidGenerationMatches pid l ≠ some false
  | some false => false
  | none => h.indeterminateRetentionOpen l

/-- `INDETERMINATE_LIVE_REASON`. -/
def indeterminateLiveReason : String := "liveness_indeterminate_worker_live"

/-- `retained_live_scope_holds_capacity`. -/
def Host.retainedLiveScopeHoldsCapacity (h : Host) (l : CapacityLease) : Bool :=
  if l.reason ≠ some indeterminateLiveReason then false
  else
    match h.processGroupLiveness l.accountedLivePgid with
    | some alive => alive
    | none => h.indeterminateRetentionOpen l

/-- `attached_worker_group_holds_capacity`. -/
def Host.attachedWorkerGroupHoldsCapacity (h : Host) (l : CapacityLease) : Bool :=
  if l.workerPgid = none ∨ l.workerPgid = some 0 then false
  else if h.probePidLiveness l.workerPid = some true ∧
      h.pidGenerationMatches l.workerPid l = some false then false
  else
    match h.processGroupLiveness l.workerPgid with
    | some true => true
    | none => h.indeterminateRetentionOpen l
    | some false => h.pidHoldsCapacity l.workerPid l

/-! ### Leases without a worker -/

/-- `LEASE_SCHEMA`. -/
def leaseSchemaV2 : String := "goalflight.capacity.lease.v2"

/-- `_lease_is_legacy`. -/
def CapacityLease.isLegacy (l : CapacityLease) : Bool :=
  l.machineId = none ∧ l.leaseSchema ≠ some leaseSchemaV2

/-- `SPAWNING_RESERVATION_S`. -/
def spawningReservation : Time := 300

/-- `_spawning_reservation_expired`. -/
def Host.spawningReservationExpired (h : Host) (l : CapacityLease) : Bool :=
  if l.launchState ≠ some "spawning" then false
  else
    match l.reservationDeadlineAt.or
      ((l.reservedAt.or l.startedAt).map (· + spawningReservation)) with
    | none => false
    | some deadline => deadline ≤ h.now

/-- The identity `_prelaunch_claimant_liveness` compares with: the lease's if it has a
token, else the record's. -/
def CapacityLease.claimantIdentityWith (l : CapacityLease) (record : Option DispatchRecord) :
    Option ProcessIdentity :=
  match l.claimantIdentity.filter fun i => i.startToken ≠ "" with
  | some identity => some identity
  | none => (record.bind DispatchRecord.claimantIdentity).or l.claimantIdentity

/-- `_prelaunch_claimant_liveness`. -/
def Host.prelaunchClaimantLiveness (h : Host) (l : CapacityLease)
    (record : Option DispatchRecord) : Option Liveness :=
  match l.claimantPid.or (record.bind DispatchRecord.claimantPid),
    l.claimantIdentityWith record with
  | some pid, some expected =>
    if pid ≤ 0 ∨ expected.startToken = "" ∨ expected.pid.getD pid ≠ pid then none
    else
      match h.probePidLiveness (some pid) with
      | some false => some .dead
      | none => none
      | some true =>
        (h.processStartToken pid).map fun current =>
          if current = expected.startToken then .live else .dead
  | _, _ => none

/-- `_reclaimable_prelaunch_lease`. -/
def Host.reclaimablePrelaunchLease (h : Host) (l : CapacityLease)
    (record : Option DispatchRecord) : Bool :=
  if l.launchState ≠ some "reserved" ∨ l.workerPid ≠ none then false
  else
    match record with
    | none => false
    | some r =>
      if r.state ≠ "waiting_capacity" ∨ r.workerPid ≠ none then false
      else h.prelaunchClaimantLiveness l (some r) = some .dead

/-- `_pre_attach_claimant_liveness`. -/
def Host.preAttachClaimantLiveness (h : Host) (l : CapacityLease) : Option Bool :=
  if l.workerPid ≠ none then some false
  else if l.claimantPid = none ∨ l.claimantPid = some 0 then some false
  else h.probePidLiveness l.claimantPid

/-- `_lease_pids_dead`. -/
def Host.leasePidsDead (h : Host) (l : CapacityLease) : Bool :=
  if h.retainedLiveScopeHoldsCapacity l then false
  else if l.workerPid = none then false
  else (h.workerIdentityLiveness l none).1 = .dead ∧ ¬ h.attachedWorkerGroupHoldsCapacity l

/-- `_terminal_worker_gone`. -/
def Host.terminalWorkerGone (h : Host) (l : CapacityLease) (record : Option DispatchRecord) :
    Bool :=
  let worker := l.workerView record
  if worker.workerPid = none then
    if l.launchState = some "spawn_failed" then true
    else
      match record with
      | none => false
      | some r =>
        if ¬ r.Terminal then false
        else if l.isLegacy then r.workerStillAlive ≠ some true
        else if r.workerStillAlive ≠ some false then false
        else if l.launchState = some "reserved" ∨ l.launchState = some "spawn_failed" then true
        else l.launchState = some "spawning" ∧ h.spawningReservationExpired l
  else if (h.workerIdentityLiveness worker none).1 ≠ .dead then false
  else ¬ (h.attachedWorkerGroupHoldsCapacity worker ∨ h.retainedLiveScopeHoldsCapacity worker)

end GoalFlight.Capacity
