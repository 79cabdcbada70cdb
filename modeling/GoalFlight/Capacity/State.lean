import GoalFlight.Library.Table
import Mathlib.Algebra.Order.Ring.Rat

/-!
# Capacity: leases, dispatch records and probes

`scripts/goalflight_capacity.py` keeps one machine's worker slots in `capacity.json`: a
lease for each, keyed by its id.  What a lease does not say about its worker is read from
the dispatch ledger, and what neither says is asked of the operating system.

* The leases are a table keyed by `lease_id`.
* A ledger record is joined with the status file it names.
* `Host` has the answers of the operating system during one transaction, each of which
  may be that it cannot tell.
-/

namespace GoalFlight.Capacity

open Relational

/-- Seconds, as `parse_iso` reads them from a timestamp. -/
abbrev Time := ℤ

/-- `{"pid": …, "start_token": …}`.  A missing start token is the empty text. -/
structure ProcessIdentity where
  pid : Option ℤ
  startToken : String
deriving DecidableEq

/-- A lease of `capacity.json`.  A missing or null field is `none`; a timestamp that does
not parse is `none` too.  `machineId` is the empty text where the key is there without a
value. -/
structure CapacityLease where
  leaseId : String
  dispatchId : Option String := none
  state : String
  machineId : Option String := none
  leaseSchema : Option String := none
  agent : String := ""
  account : String := ""
  effectiveAccount : String := ""
  capacityWeight : Option ℚ := none
  memMb : ℕ := 0
  launchState : Option String := none
  reason : Option String := none
  workerPid : Option ℤ := none
  workerIdentity : Option ProcessIdentity := none
  workerPgid : Option ℤ := none
  controllerPid : Option ℤ := none
  controllerIdentity : Option ProcessIdentity := none
  claimantPid : Option ℤ := none
  claimantIdentity : Option ProcessIdentity := none
  accountedLivePgid : Option ℤ := none
  accountedLiveUntil : Option Time := none
  livenessUnknownSince : Option Time := none
  reservedAt : Option Time := none
  reservationDeadlineAt : Option Time := none
  startedAt : Option Time := none
  expiresAt : Option Time := none
  releasedAt : Option Time := none
  endedAt : Option Time := none
  historyRetained : Bool := false
deriving DecidableEq

/-- `lease["state"] == "active"`. -/
abbrev CapacityLease.Active (l : CapacityLease) : Prop := l.state = "active"

/-- A dispatch-ledger record, with the fields capacity reads. -/
structure DispatchRecord where
  dispatchId : String
  state : String
  terminalState : Option String := none
  reason : Option String := none
  error : Option String := none
  statusPath : Option String := none
  account : String := ""
  effectiveAccount : String := ""
  claimantPid : Option ℤ := none
  claimantIdentity : Option ProcessIdentity := none
  workerPid : Option ℤ := none
  workerIdentity : Option ProcessIdentity := none
  workerPgid : Option ℤ := none
  workerStillAlive : Option Bool := none

/-- A worker's status file. -/
structure WorkerStatus where
  dispatchId : String
  workerPid : Option ℤ := none
  workerIdentity : Option ProcessIdentity := none
  workerPgid : Option ℤ := none
  workerStillAlive : Option Bool := none

/-- What the host answers.  A probe without an answer is one that could not decide. -/
structure Host where
  now : Time
  machineId : String
  /-- `goalflight_compat.pid_liveness`, asked of positive pids. -/
  pidLiveness : ℤ → Option Bool
  /-- `goalflight_compat.process_start_identity`, its token. -/
  startToken : ℤ → Option String
  /-- `os.killpg(pgid, 0)`, asked of groups above 1. -/
  groupLiveness : ℤ → Option Bool
  /-- `goalflight_ledger.read_record`; an exception is no record. -/
  ledger : String → Option DispatchRecord
  /-- A status file that reads as an object. -/
  statusFile : String → Option WorkerStatus

/-- A cooldown of an agent or account. -/
structure Cooldown where
  key : String
  until_ : Option Time
  reason : String

/-- `capacity.json`. -/
structure CapacityState where
  machineId : Option String
  leases : KeyedTable CapacityLease.leaseId
  cooldowns : KeyedTable Cooldown.key

/-- `active_leases`. -/
def CapacityState.activeLeases (s : CapacityState) : List CapacityLease :=
  s.leases.rows.filter fun l => l.Active

theorem CapacityState.mem_activeLeases {s : CapacityState} {l : CapacityLease} :
    l ∈ s.activeLeases ↔ l ∈ s.leases ∧ l.Active := by
  unfold CapacityState.activeLeases
  rw [List.mem_filter, decide_eq_true_eq]
  rfl

/-! ### Dispatch states -/

/-- `SUCCESS_TERMINAL_RECORD_STATES`. -/
def successTerminalRecordStates : List String := ["complete", "released"]

/-- `LIMIT_TERMINAL_STATES`. -/
def limitTerminalStates : List String :=
  ["quota_exhausted", "transient_throttle", "limit_unknown", "rate_limited"]

/-- `FAILURE_TERMINAL_RECORD_STATES`. -/
def failureTerminalRecordStates : List String :=
  ["error", "failed", "blocked", "blocked_adapter_gate", "blocked_auth", "blocked_capacity",
    "blocked_completion_authority", "blocked_os_sandbox", "blocked_session_limit",
    "blocked_task_breadcrumb", "blocked_windows_dispatch", "inconclusive_timeout",
    "inconclusive_no_final", "worker_dead", "killed", "tool_timeout", "stalled",
    "remote_turn_silence", "failed_worktree", "controller_dead", "orphaned", "superseded",
    "withdrawn"] ++ limitTerminalStates

/-- `WEDGED_TERMINAL_RECORD_STATES`. -/
def wedgedTerminalRecordStates : List String :=
  ["idle_timeout", "wedged", "liveness_indeterminate"]

/-- `TERMINAL_STATES`. -/
def terminalStates : List String :=
  successTerminalRecordStates ++ failureTerminalRecordStates ++ wedgedTerminalRecordStates

/-- `TERMINAL_ERROR_STATES`. -/
def terminalErrorStates : List String :=
  ["error", "failed", "wedged", "tool_timeout", "stalled", "remote_turn_silence",
    "failed_worktree"]

/-- `TERMINAL_LEASE_STATES`. -/
def terminalLeaseStates : List String := terminalStates ++ ["expired", "result_too_large"]

/-- `terminal_state_for`. -/
def terminalStateFor (state : String) (reason : Option String) : String :=
  if state ∈ successTerminalRecordStates then "complete"
  else if state = "worker_dead" then "worker_dead"
  else if state ∈ limitTerminalStates then state
  else if state = "liveness_indeterminate" then "liveness_indeterminate"
  else if state = "idle_timeout" ∨ state = "inconclusive_timeout" then "idle_timeout"
  else if state = "watcher_stopped" then "watcher_stopped"
  else if state = "controller_dead" ∨ (state = "orphaned" ∧ reason = some "controller_dead") then
    "controller_dead"
  else if "blocked".toList.isPrefixOf state.toList then "blocked"
  else if state ∈ terminalErrorStates then "error"
  else if state ∈ failureTerminalRecordStates then state
  else "unknown"

/-- A text that is there and not empty. -/
def given (text : Option String) : Option String := text.filter (· ≠ "")

/-- `_terminal_key`. -/
def DispatchRecord.terminalKey (r : DispatchRecord) : String :=
  (given r.terminalState).getD (terminalStateFor r.state ((given r.reason).or r.error))

/-- The record says that the dispatch is over. -/
abbrev DispatchRecord.Terminal (r : DispatchRecord) : Prop := r.terminalKey ∈ terminalStates

/-! ### The record of a lease -/

/-- The record with the worker fields it lacks taken from the status file. -/
def DispatchRecord.merge (r : DispatchRecord) (status : WorkerStatus) : DispatchRecord :=
  { r with
    workerPid := r.workerPid.or status.workerPid
    workerIdentity := r.workerIdentity.or status.workerIdentity
    workerPgid := r.workerPgid.or status.workerPgid
    workerStillAlive := r.workerStillAlive.or status.workerStillAlive }

/-- `goalflight_ledger.read_record` for a lease's dispatch, if it names one. -/
def Host.readRecord (h : Host) (dispatchId : Option String) : Option DispatchRecord :=
  match given dispatchId with
  | none => none
  | some id => h.ledger id

/-- `_dispatch_record_for_lease`. -/
def Host.dispatchRecordForLease (h : Host) (dispatchId : Option String) :
    Option DispatchRecord :=
  match h.readRecord dispatchId with
  | none => none
  | some record =>
    if record.state = "unreadable" then some record
    else
      match (given record.statusPath).bind h.statusFile with
      | none => some record
      | some status =>
        if some status.dispatchId = dispatchId then some (record.merge status)
        else some record

end GoalFlight.Capacity
