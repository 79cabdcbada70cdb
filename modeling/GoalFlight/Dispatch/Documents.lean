import GoalFlight.Capacity.State
import GoalFlight.Dispatch.Identity

/-!
# Dispatch: queue entries, ledger rows and status files

The three documents a dispatch leaves on disk, with the fields their readers look at.  All
are JSON objects other processes write, so a field holds any JSON value where the readers
take any, and a missing key is `null`.

The state texts are those of `scripts/goalflight_dispatch_states.py`.
-/

namespace GoalFlight.Dispatch

open Json GoalFlight.Capacity

/-! ### State texts -/

/-- `SALVAGE_NEEDED_STATES`. -/
def salvageNeededStates : List String := ["salvage_needed", "cleanup_needed"]

/-- `RUNNING_STATES`. -/
def runningStates : List String := ["queued", "starting", "running", "running_quiet", "waiting"]

/-- `DISPATCH_STATE_ALIASES.get(state, state)`. -/
def dispatchStateAlias (state : String) : String :=
  if state = "queued" ∨ state = "waiting_capacity" then "waiting"
  else if state = "handshaking" then "starting"
  else if state = "idle_timeout" then "inconclusive_timeout"
  else if state = "watcher_stopped" then "running_quiet"
  else if state = "rate_limited" then "limit_unknown"
  else state

/-- `normalize_dispatch_state`. -/
def normalizeDispatchState (state : String) : Option String :=
  if state = "" then none
  else if "blocked".toList.isPrefixOf state.toList then some "blocked"
  else some (dispatchStateAlias state)

/-- The state is in the terminal vocabulary. -/
abbrev InTerminalVocabulary (state : String) : Prop :=
  state ∈ terminalStates ∨ state ∈ salvageNeededStates

/-- `is_terminal_state`. -/
def isTerminalState (state : String) : Bool :=
  InTerminalVocabulary state ∨ (normalizeDispatchState state).any (InTerminalVocabulary ·)

/-- `is_running_state`. -/
def isRunningState (state : String) : Bool :=
  (normalizeDispatchState state).any (· ∈ runningStates)

/-- A value that is a text. -/
def textOf : Value → Option String
  | .str s => some s
  | _ => none

/-! ### Timestamps -/

/-- A timestamp field, by what `_parse_timestamp_s` makes of it. -/
inductive Stamp
  | absent
  | unreadable
  | at (seconds : Seconds)
deriving DecidableEq

/-- The field counts as true. -/
def Stamp.given : Stamp → Bool
  | .absent => false
  | _ => true

/-- `_parse_timestamp_s`. -/
def Stamp.seconds? : Stamp → Option Seconds
  | .at seconds => some seconds
  | _ => none

/-! ### The documents -/

/-- A queue envelope or a claim of it. -/
structure QueueEntry where
  dispatchId : String := ""
  state : String := ""
  projectRoot : Option String := none
  requestCwd : Option String := none
  taskIds : List String := []
  dispatchArgv : List String := []
  /-- `transport`, `shape` and the request's two, in the order they are looked at. -/
  transport : Option String := none
  shape : Option String := none
  requestTransport : Option String := none
  requestShape : Option String := none
  /-- `node` or `remote_node`. -/
  node : Option String := none
  requestNode : Option String := none
  createdAt : Stamp := .absent
  startedAt : Stamp := .absent
  requestStartedAt : Stamp := .absent
  requestCreatedAt : Stamp := .absent
  orphanFirstSeenAt : Stamp := .absent
  exemptIds : List String := []
  queueLaunchToken : Option String := none
  restoreTxnId : Option String := none
  claimRecoveryCount : Value := .null
  completionAuthorityReason : Option String := none
  completionAuthorityDeferralCount : Value := .null
  controllerLabel : Option String := none
  controllerPid : Value := .null
  controllerSessionId : Option String := none
  controllerIdentity : Value := .null
  statusPath : Value := .null
  workerPid : Value := .null
  queueClaimerPid : Value := .null
  queueClaimerIdentity : Value := .null
  queueLaunchStarted : Bool := false
  queueLaunchStartedAt : Stamp := .absent
  queueLauncherPid : Value := .null
  queueLauncherIdentity : Value := .null
  queueWorkerPid : Value := .null
  queueWorkerIdentity : Value := .null
  queueWorkerPgid : Value := .null
  queueWorkerSpawnIntent : Bool := false
  queueWorkerSpawnIntentAt : Stamp := .absent
  queueWorkerSpawnedAt : Stamp := .absent
deriving DecidableEq

/-- A row of the dispatch ledger. -/
structure LedgerRow where
  dispatchId : String
  state : String := ""
  terminalState : Option String := none
  reason : Value := .null
  error : Value := .null
  supersededBy : Value := .null
  withdrawnBy : Value := .null
  deathCause : Value := .null
  terminalMarker : Value := .null
  terminalEventUuid : Option String := none
  taskIds : List String := []
  transport : String := ""
  node : Option String := none
  hostname : Option String := none
  projectRoot : Option String := none
  controllerLabel : Option String := none
  controllerSessionId : Option String := none
  controllerPid : Value := .null
  controllerIdentity : Value := .null
  leaseId : Option String := none
  remoteLeaseId : Option String := none
  startedAt : Stamp := .absent
  updatedAt : Stamp := .absent
  endedAt : Stamp := .absent
  orphanFirstSeenAt : Stamp := .absent
  statusPath : Value := .null
  stdoutPath : Value := .null
  stderrPath : Value := .null
  claimantPid : Value := .null
  claimantIdentity : Value := .null
  workerPid : Value := .null
  workerIdentity : Value := .null
  workerPgid : Value := .null
  workerGroupLeaderIdentity : Value := .null
  producerGroupContract : Bool := false
  producerGroupContractEnforced : Bool := false
  producerDescendants : Value := .null
  remoteLaunchReceipt : Value := .null
  livenessState : Option String := none
  workerStillAlive : Value := .null
  queueLaunchToken : Option String := none
  queuePath : Option String := none
  restoreTxnId : Option String := none
  claimRecoveryCount : Value := .null
  queueWorkerPid : Value := .null
  queueWorkerSpawnIntent : Bool := false
  queueWorkerSpawnIntentAt : Stamp := .absent
  queueWorkerSpawnedAt : Stamp := .absent
  dispatchArgv : List String := []
  requestEnvelope : Option QueueEntry := none
  /-- The fields no reader here looks at. -/
  others : List (String × Value) := []
deriving DecidableEq

/-- A status file. -/
structure StatusSidecar where
  dispatchId : String
  state : Value := .null
  updatedAt : Stamp := .absent
  terminalPendingState : Value := .null
  workerAlive : Value := .null
  workerPid : Value := .null
  workerIdentity : Value := .null
  expectedWorkerIdentity : Value := .null

/-- `status.get("expected_worker_identity") or status.get("worker_identity")`. -/
def StatusSidecar.identity (s : StatusSidecar) : Value :=
  s.expectedWorkerIdentity.orElse s.workerIdentity

/-- `record_is_unreadable`: the row stands for a file that could not be read. -/
def LedgerRow.Unreadable (r : LedgerRow) : Prop := r.state = "unreadable"

instance (r : LedgerRow) : Decidable r.Unreadable := inferInstanceAs (Decidable (_ = _))

/-- `record.get("reason") or record.get("error")`. -/
def LedgerRow.cause (r : LedgerRow) : Value := r.reason.orElse r.error

/-- `record.get("terminal_state") or terminal_state_for(…)`. -/
def LedgerRow.terminalKey (r : LedgerRow) : String :=
  (given r.terminalState).getD (terminalStateFor r.state (textOf r.cause))

/-- `_dispatch_record_is_terminal` of a row that is there. -/
def LedgerRow.isTerminal (r : LedgerRow) : Bool :=
  ¬ r.Unreadable ∧ (r.terminalKey ≠ "unknown" ∨ isTerminalState r.state)

/-! ### Reading a status file -/

/-- What a path of a status file reads as. -/
inductive StatusFile
  | absent
  | unreadable
  | notDict
  | sidecar (s : StatusSidecar)

/-- Why `_abandoned_status_payload` has no status. -/
inductive StatusEvidence
  | statusPathAbsent
  | statusPathInvalid
  | statusFileAbsent
  | statusUnreadable
  | statusPayloadInvalid
  | statusDispatchMismatch

/-- `_abandoned_status_payload`. -/
def abandonedStatusPayload (files : String → StatusFile) (dispatchId : String)
    (statusPath : Value) : Except StatusEvidence StatusSidecar :=
  if statusPath.isAbsent then .error .statusPathAbsent
  else
    match statusPath with
    | .str path =>
      match files path with
      | .absent => .error .statusFileAbsent
      | .unreadable => .error .statusUnreadable
      | .notDict => .error .statusPayloadInvalid
      | .sidecar s =>
        if s.dispatchId = dispatchId then .ok s else .error .statusDispatchMismatch
    | _ => .error .statusPathInvalid

end GoalFlight.Dispatch
