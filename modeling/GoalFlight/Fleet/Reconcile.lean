import GoalFlight.Fleet.AccountLock
import GoalFlight.Fleet.Ingest

/-!
# Fleet: reconciling a dispatch

What the controller keeps of a dispatch is its mirror, a few notes beside it, and the lock of the
account it was charged to.  Reconciling classifies the dispatch by the first two and, where the
class allows it, releases the lock.

The notes have the fields that are read here or by the watch.
-/

namespace GoalFlight.Fleet

open Json Relational
open GoalFlight.Capacity (given failureTerminalRecordStates wedgedTerminalRecordStates
  successTerminalRecordStates)
open GoalFlight.Dispatch (textOf salvageNeededStates isTerminalState isRunningState)

/-! ### Notes -/

/-- What is thought of the worker's process. -/
inductive PidHint
  | alive
  | dead
  | unknown
deriving DecidableEq

/-- A launch receipt. -/
structure Receipt where
  remotePid : Option ℤ

/-- `meta.json` of a dispatch. -/
structure DispatchMeta where
  rowState : Option String
  pidHint : Option PidHint
  mirrorStale : Bool := false
  mirrorIngestStopped : Bool := false
  lastMirrorSeq : Option ℤ := none
  leaseActive : Bool := true
  launchUnconfirmed : Bool := false
  launchUnconfirmedStatusMisses : ℕ := 0
  launchReceipt : Option Receipt := none
  remotePid : Option ℤ := none
  remoteStatusPath : Option String := none
  remoteStateDir : Option String := none
  worktreePath : Option String := none
  accountKey : Option String := none
  billingAccount : Option String := none
  accountLockFencingToken : Option String := none

/-- What `register_dispatch_meta` writes after a launch, confirmed or not. -/
def registerDispatchMeta (launchUnconfirmed : Bool) (launchReceipt : Option Receipt)
    (remoteStateDir remoteStatusPath billingAccount : String)
    (worktreePath accountKey accountLockFencingToken : Option String) : DispatchMeta where
  rowState := some (if launchUnconfirmed then "launch_unconfirmed" else "launch_receipted")
  pidHint := some (if launchUnconfirmed then .unknown else .alive)
  launchUnconfirmed := launchUnconfirmed
  launchReceipt := launchReceipt
  remotePid := launchReceipt.bind Receipt.remotePid
  remoteStatusPath := some remoteStatusPath
  remoteStateDir := some remoteStateDir
  worktreePath := worktreePath
  accountKey := accountKey
  billingAccount := some billingAccount
  accountLockFencingToken := accountLockFencingToken

/-! ### Classes -/

/-- The state of what a mirror reads as. -/
def remoteStateFromMirror (mirror : Except Refusal Reading) : Option String :=
  mirror.toOption.bind fun r => textOf (value r.payload "state")

/-- The classes of a dispatch. -/
inductive ClassState
  | running
  | terminal
  | salvage
  | reconciling
  | quarantined
  | unknown
deriving DecidableEq

/-- Why a dispatch is in quarantine. -/
inductive QuarantineReason
  | sshPartition
  | mirrorStale
  | mirrorUnreadable
  | leaseMissing
  | terminalPidAlive
deriving DecidableEq

/-- `DispatchClassification`. -/
structure DispatchClassification where
  state : ClassState
  quarantineReason : Option QuarantineReason := none

/-- `classify_dispatch_row`. -/
def classifyDispatchRow (sshReachable : Bool) (mirror : Except Refusal Reading)
    (mirrorStale leaseActive : Bool) (pidHint : PidHint) : DispatchClassification :=
  let remoteState := remoteStateFromMirror mirror
  if !sshReachable then ⟨.unknown, some .sshPartition⟩
  else if mirrorStale then
    if pidHint = .alive ∧ remoteState.any isRunningState then ⟨.quarantined, some .mirrorStale⟩
    else ⟨.unknown, some .mirrorStale⟩
  else if mirror.toOption = none then
    if leaseActive ∧ pidHint = .dead then ⟨.reconciling, some .mirrorUnreadable⟩
    else ⟨.unknown, some .mirrorUnreadable⟩
  else if remoteState.any (· ∈ salvageNeededStates) then ⟨.salvage, none⟩
  else if remoteState.any isTerminalState then
    if pidHint = .alive then ⟨.quarantined, some .terminalPidAlive⟩ else ⟨.terminal, none⟩
  else if remoteState.any isRunningState ∧ leaseActive ∧ pidHint = .alive then ⟨.running, none⟩
  else if remoteState.any isRunningState ∧ !leaseActive ∧ pidHint = .alive then
    ⟨.quarantined, some .leaseMissing⟩
  else if remoteState.any isRunningState ∧ leaseActive ∧ pidHint = .dead then
    ⟨.reconciling, some .mirrorUnreadable⟩
  else if leaseActive ∧ remoteState = none ∧ pidHint = .dead then
    ⟨.reconciling, some .mirrorUnreadable⟩
  else if leaseActive then ⟨.unknown, some .mirrorUnreadable⟩
  else ⟨.unknown, none⟩

/-- `may_release_locks`. -/
def mayReleaseLocks (classification : DispatchClassification) : Bool :=
  match classification.state with
  | .terminal => classification.quarantineReason ≠ some .mirrorStale
  | .reconciling => classification.quarantineReason = some .mirrorUnreadable
  | _ => false

/-- `_pid_hint`. -/
def pidHintOf (meta_ : DispatchMeta) (mirror : Except Refusal Reading) : PidHint :=
  meta_.pidHint.getD
    (if mirror.toOption.any fun r => (value r.payload "worker_pid").truthy then .alive else .unknown)

/-- `_mirror_stale`. -/
def mirrorStaleOf (meta_ : DispatchMeta) (mirror : Except Refusal Reading) : Bool :=
  meta_.mirrorStale || mirror.toOption.any fun r => meta_.lastMirrorSeq.any (r.seq < ·)

/-! ### Locks -/

/-- The locks of the accounts, each in its file. -/
abbrev LockFiles := KeyedTable fun lock : AccountLock => accountLockPath lock.accountKey

/-- A lock as the dispatch's own, active. -/
def AccountLock.ownedBy (lock : AccountLock) (dispatchId : String) : Bool :=
  lock.state = .active && lock.ownerDispatchId = dispatchId

/-- `find_account_lock_for_dispatch`. -/
def findAccountLockForDispatch (locks : LockFiles) (dispatchId : String) : Option AccountLock :=
  locks.find? fun lock => lock.ownedBy dispatchId

/-- A text that is not blank. -/
def nonblank (text : Option String) : Option String := text.filter fun s => strip s ≠ ""

variable (tokenText : ℕ → String)

/-- `account_lock_from_dispatch_meta`; `tokenText` is a token as it is written. -/
def accountLockFromDispatchMeta (locks : LockFiles) (dispatchId : String) (meta_ : DispatchMeta) :
    Option AccountLock := do
  let accountKey ← nonblank ((given meta_.accountKey).or meta_.billingAccount)
  let lock ← KeyedTable.get? locks (accountLockPath (strip accountKey))
  if lock.ownedBy dispatchId ∧
      (given meta_.accountLockFencingToken).all (tokenText lock.fencingToken = ·) then some lock
  else none

/-- `resolve_account_lock_for_dispatch`. -/
def resolveAccountLockForDispatch (locks : LockFiles) (dispatchId : String)
    (meta_ : DispatchMeta) : Option AccountLock :=
  (accountLockFromDispatchMeta tokenText locks dispatchId meta_).or
    (findAccountLockForDispatch locks dispatchId)

/-- `release_account_lock`, at a time in microseconds: the locks after it and the one that was
stored, or nothing for an `AccountLockError`. -/
def releaseAccountLock (locks : LockFiles) (now : ℤ) (lock : AccountLock) (reason : String) :
    Option (LockFiles × AccountLock) := do
  let stored ← KeyedTable.get? locks (accountLockPath lock.accountKey)
  if stored.fencingToken = lock.fencingToken then
    some (KeyedTable.set locks
      { stored with state := .released, releasedAt := some (iso now), reason := some reason }, stored)
  else none

/-! ### Decisions -/

/-- `_merge_status_lock_meta`. -/
def mergeStatusLockMeta (meta_ : DispatchMeta) (mirror : Except Refusal Reading) : DispatchMeta :=
  let merged (own : Option String) (key : String) : Option String :=
    (given own).or (mirror.toOption.bind fun r => (nonblank (textOf (value r.payload key))).map strip)
  { meta_ with
    accountKey := merged meta_.accountKey "account_key"
    billingAccount := merged meta_.billingAccount "billing_account"
    accountLockFencingToken := merged meta_.accountLockFencingToken "account_lock_fencing_token" }

/-- `PRE_STATUS_FAILED_ROW_STATES`. -/
def preStatusFailedRowStates : List String :=
  failureTerminalRecordStates ++ ["launch_failed", "launch_rejected", "dispatcher_rejected"]

/-- `_launch_unconfirmed_grace_elapsed`; `waited` says that the launch is long enough ago. -/
def launchUnconfirmedGraceElapsed (meta_ : DispatchMeta) (waited : Bool) : Bool :=
  2 ≤ meta_.launchUnconfirmedStatusMisses && waited

/-- `_pre_status_release_confirmed`. -/
def preStatusReleaseConfirmed (meta_ : DispatchMeta) (mirror : Except Refusal Reading)
    (waited : Bool) : Bool :=
  match mirror with
  | .error .missingFile =>
    !meta_.leaseActive ||
      (meta_.pidHint = some .dead &&
        (meta_.rowState.any (· ∈ preStatusFailedRowStates) ||
          (meta_.launchUnconfirmed && launchUnconfirmedGraceElapsed meta_ waited)))
  | _ => true

/-- What reconciling does. -/
inductive ReconcileAction
  | noop
  | quarantine
  | refresh
  | releaseLocks
deriving DecidableEq

/-- `DispatchReconcileContext`. -/
structure ReconcileContext where
  notes : DispatchMeta
  classification : DispatchClassification
  mayRelease : Bool
  sshReachable : Bool
  accountLock : Option AccountLock

variable (isoSeconds : String → Option ℤ)

/-- `build_dispatch_context`. -/
def buildDispatchContext (dispatchId : String) (file : MirrorFile) (meta_ : DispatchMeta)
    (locks : LockFiles) (sshReachable waited : Bool) : ReconcileContext :=
  let mirror := readStatusMirror isoSeconds file none
  let notes := mergeStatusLockMeta meta_ mirror
  let classification := classifyDispatchRow sshReachable mirror (mirrorStaleOf notes mirror)
    notes.leaseActive (pidHintOf notes mirror)
  { notes := notes
    classification := classification
    mayRelease :=
      !(remoteStateFromMirror mirror).any (· ∈ salvageNeededStates) &&
        mayReleaseLocks classification && preStatusReleaseConfirmed notes mirror waited
    sshReachable := sshReachable
    accountLock := resolveAccountLockForDispatch tokenText locks dispatchId notes }

/-- `decide_reconcile_action`. -/
def decideReconcileAction (ctx : ReconcileContext) : ReconcileAction :=
  if ctx.notes.rowState = some "released" then .noop
  else if !ctx.sshReachable then .quarantine
  else
    match ctx.classification.state with
    | .running => .refresh
    | .salvage => .noop
    | .unknown | .quarantined => if ctx.mayRelease then .releaseLocks else .quarantine
    | .terminal | .reconciling => if ctx.mayRelease then .releaseLocks else .noop

end GoalFlight.Fleet
