import GoalFlight.Fleet.Reconcile

/-!
# Fleet: watching a dispatch

One poll of a dispatch fetches its status and takes it in, and may make a verdict of its own, after
it has asked whether the worker's process is alive and whether its worktree is clean.  Who polls is
a watch that ends when the dispatch is at its end, or a sync that goes over all dispatches; and
beside them the dispatch is reconciled.

A store has the files of one dispatch, and the list of what happened to it, the latest first.
-/

namespace GoalFlight.Fleet

open Json Relational
open GoalFlight.Capacity (given failureTerminalRecordStates wedgedTerminalRecordStates)
open GoalFlight.Dispatch (textOf salvageNeededStates isTerminalState isRunningState)

/-! ### The store -/

/-- The answer to whether the launched process is alive. -/
inductive IdentityAnswer
  | unavailable
  | alive
  | dead
deriving DecidableEq

/-- The answer to whether a worktree is clean. -/
inductive PorcelainAnswer
  | unavailable (error : String)
  | clean
  | dirty (porcelain : String)
deriving DecidableEq

/-- What happens to a dispatch. -/
inductive Event
  /-- A status was ingested; the mirror has this state now. -/
  | accepted (state : Option String)
  /-- A status was refused for its number, and the mirror is stale. -/
  | regressed
  /-- A verdict was written over the mirror. -/
  | verdict (state : String)
  | answered (answer : IdentityAnswer)
  | checked (answer : PorcelainAnswer)
  /-- A watch has confirmed that the dispatch is at its end. -/
  | confirmed (watcher : ℕ)
  /-- This lock was stored, and is released; the mirror is stale, or not. -/
  | released (stored : AccountLock) (stale : Bool)
deriving DecidableEq

/-- What the controller has of a dispatch. -/
structure Store where
  file : MirrorFile
  notes : DispatchMeta
  locks : LockFiles
  history : List Event

namespace Store

/-- It happens. -/
def note (s : Store) (e : Event) : Store := { s with history := e :: s.history }

/-- The notes are rewritten. -/
def mark (s : Store) (f : DispatchMeta → DispatchMeta) : Store := { s with notes := f s.notes }

end Store

/-- What is fetched: nothing, or the JSON value of a text. -/
inductive Fetch
  | failed
  | fetched (content : Option Document)

/-- What a poll gets for an answer, where it asks, and what its clocks say. -/
structure Answers where
  fetch : Fetch
  identity : IdentityAnswer
  porcelain : PorcelainAnswer
  /-- The launch is long enough ago. -/
  waited : Bool
  /-- There was no progress for long enough. -/
  quiet : Bool
  /-- The deadline of the watch has come. -/
  timedOut : Bool
  source : EpochSource
  now : String
  clock : ℤ

/-- The dispatch, and the node's `state_dir`. -/
structure Target where
  dispatchId : String
  nodeStateDir : Option String

variable (isoSeconds : String → Option ℤ) (tokenText : ℕ → String) (target : Target)

/-- The lock that was stored is released. -/
def Store.noteReleased (s : Store) (locks : LockFiles) (stored : AccountLock) : Store :=
  { s with locks := locks }.note
    (.released stored (mirrorStaleOf s.notes (readStatusMirror isoSeconds s.file none)))

/-- `_mirror_state`, of a file. -/
def mirrorState (file : MirrorFile) : Option String :=
  remoteStateFromMirror (readStatusMirror isoSeconds file none)

/-- The number of the mirror. -/
def mirrorSeq (file : MirrorFile) : Option ℤ :=
  (readStatusMirror isoSeconds file none).toOption.map Reading.seq

/-! ### Reconciling -/

/-- `release_dispatch_locks`, in a context that may release. -/
def releaseDispatchLocks (s : Store) (ctx : ReconcileContext) (clock : ℤ) : Store :=
  let released (s : Store) : Store :=
    s.mark fun m => { m with rowState := some "released", leaseActive := false }
  let reason := if ctx.classification.state = .terminal then "terminal" else "reconciling"
  match ctx.accountLock with
  | none => if ctx.notes.leaseActive then s else released s
  | some lock =>
    if lock.accountKey = "" ∨ tokenText lock.fencingToken = "" then s
    else
      match releaseAccountLock s.locks clock lock reason with
      | none => s
      | some (locks, stored) => released (s.noteReleased isoSeconds locks stored)

/-- **`reconcile_dispatch`.** -/
def reconcileDispatch (s : Store) (mutate sshReachable waited : Bool) (clock : ℤ) : Store :=
  let ctx := buildDispatchContext tokenText isoSeconds target.dispatchId s.file s.notes s.locks
    sshReachable waited
  if mutate ∧ decideReconcileAction ctx = .releaseLocks then
    releaseDispatchLocks isoSeconds tokenText s ctx clock
  else s

/-! ### Verdicts -/

/-- A verdict goes into the mirror; nothing, if that raises. -/
def Store.writeVerdict (s : Store) (x : Answers) (v : Verdict) : Option Store :=
  (Fleet.writeVerdict isoSeconds target.dispatchId x.now x.source s.file v).map fun file =>
    { s with file := file }.note (.verdict v.state)

/-- `seq` of a verdict over the mirror. -/
def verdictSeq (s : Store) : ℤ := nextSeq (readStatusMirror isoSeconds s.file none).toOption

/-- `_write_worker_dead_mirror`. -/
def writeWorkerDeadMirror (s : Store) (x : Answers) : Option Store :=
  (s.writeVerdict isoSeconds target x .workerDead).map fun s' =>
    s'.mark fun m => { m with
      lastMirrorSeq := some (verdictSeq isoSeconds s)
      mirrorStale := false
      pidHint := some .dead
      rowState := some "worker_dead" }

/-- `_write_salvage_needed_mirror`. -/
def writeSalvageNeededMirror (s : Store) (x : Answers) (worktreePath : Option String)
    (porcelain : Option String) (porcelainError : Option String) (reason : String) : Option Store :=
  (s.writeVerdict isoSeconds target x
      (.salvageNeeded reason worktreePath porcelain porcelainError)).map fun s' =>
    s'.mark fun m => { m with
      lastMirrorSeq := some (verdictSeq isoSeconds s)
      mirrorStale := false
      pidHint := some .dead
      rowState := some "salvage_needed"
      worktreePath := (given worktreePath).or m.worktreePath }

/-- What a poll's check of the worktree leads to. -/
inductive SalvageCheck
  | clean (s : Store)
  | salvage (s : Store)
  | raised

/-- `_salvage_needed_for_dirty_worktree`, with the notes that the poll began with. -/
def salvageNeededForDirtyWorktree (s : Store) (notes : DispatchMeta) (x : Answers)
    (reasonLead : String) : SalvageCheck :=
  let ended : Option Store → SalvageCheck := (·.elim .raised .salvage)
  match (nonblank notes.worktreePath).map strip with
  | none =>
    ended (writeSalvageNeededMirror isoSeconds target s x none none
      (some "dispatch meta missing declared worktree_path") (reasonLead ++ "_worktree_unknown"))
  | some path =>
    let s := s.note (.checked x.porcelain)
    match x.porcelain with
    | .clean => .clean s
    | .dirty porcelain =>
      ended (writeSalvageNeededMirror isoSeconds target s x (some path) (some porcelain) none
        (reasonLead ++ "_dirty_worktree"))
    | .unavailable error =>
      ended (writeSalvageNeededMirror isoSeconds target s x (some path) none (some error)
        (reasonLead ++ "_porcelain_unavailable"))

/-! ### Taking a status in -/

/-- The `action` of a poll. -/
inductive PollAction
  | skipped
  | fetchFailed
  | launchUnconfirmed
  | launchUnconfirmedFailed
  | dispatchIdMismatch
  | unchanged
  | seqRegression
  | validationFailed
  | ingested
deriving DecidableEq

/-- `row.ok`. -/
def PollAction.ok : PollAction → Bool
  | .launchUnconfirmed | .launchUnconfirmedFailed | .unchanged | .ingested => true
  | _ => false

/-- `resolve_remote_status_path`. -/
def resolveRemoteStatusPath (notes : DispatchMeta) : Option String :=
  ((nonblank notes.remoteStatusPath).map strip).or
    ((nonblank ((given notes.remoteStateDir).or target.nodeStateDir)).map fun stateDir =>
      String.ofList ((strip stateDir).toList.reverse.dropWhile (· = '/')).reverse ++ "/dispatches/" ++
        target.dispatchId ++ "/status.json")

/-- `_coerce_pid`. -/
def coercePid : Value → Option ℤ
  | .bool _ => none
  | v => v.int?

/-- The pid of `_receipt_from_status_payload`. -/
def receiptPid (payload : Mapping) : Option ℤ :=
  coercePid ((value payload "worker_pid").orElse (value payload "pid"))

/-- There is a receipt: `_receipt_from_meta`. -/
def receiptFromMeta (notes : DispatchMeta) : Bool :=
  (notes.launchReceipt.any fun receipt => receipt.remotePid.any (· ≠ 0)) ||
    (notes.remotePid.isSome && (given notes.remoteStatusPath).isSome)

/-- What `_mark_meta_identity` makes of an answer. -/
def hintOf : IdentityAnswer → PidHint
  | .alive => .alive
  | .dead => .dead
  | .unavailable => .unknown

/-- The process is asked for, and the notes say what was answered. -/
def Store.askIdentity (s : Store) (x : Answers) : Store :=
  (s.note (.answered x.identity)).mark fun m => { m with pidHint := some (hintOf x.identity) }

/-- `_write_launch_failed_and_release`. -/
def writeLaunchFailedAndRelease (s : Store) (x : Answers) (reason : String) : Option Store :=
  (s.writeVerdict isoSeconds target x (.launchFailed reason)).map fun s' =>
    reconcileDispatch isoSeconds tokenText target
      (s'.mark fun m => { m with
        launchUnconfirmed := false
        rowState := some "failed"
        pidHint := some .dead
        lastMirrorSeq := some (verdictSeq isoSeconds s) })
      true true x.waited x.clock

/-- A launch without a status is given up: the process is dead, and there was none for long enough. -/
def givesUpLaunch (s : Store) (x : Answers) : Bool :=
  let notes := { s.notes with
    launchUnconfirmedStatusMisses := s.notes.launchUnconfirmedStatusMisses + 1 }
  receiptFromMeta notes && x.identity = .dead && s.file = .missing &&
    launchUnconfirmedGraceElapsed notes x.waited

/-- `_resolve_unconfirmed_without_status`. -/
def resolveUnconfirmedWithoutStatus (s : Store) (x : Answers) : Option (Store × PollAction) :=
  let missed := s.mark fun m => { m with
    launchUnconfirmed := true
    rowState := some "launch_unconfirmed"
    launchUnconfirmedStatusMisses := m.launchUnconfirmedStatusMisses + 1 }
  if receiptFromMeta missed.notes then
    let asked := missed.askIdentity x
    if givesUpLaunch s x then
      (writeLaunchFailedAndRelease isoSeconds tokenText target asked x
        "launch_unconfirmed_no_status_dead_pid_after_grace").map (·, .launchUnconfirmedFailed)
    else some (asked, .launchUnconfirmed)
  else some (missed, .launchUnconfirmed)

/-- `_mark_meta_ingested`. -/
def markIngested (seq : ℤ) (m : DispatchMeta) : DispatchMeta :=
  { m with lastMirrorSeq := some seq, mirrorStale := false, mirrorIngestStopped := false,
           rowState := none }

/-- `_mark_meta_seq_regression`. -/
def markSeqRegression (m : DispatchMeta) : DispatchMeta :=
  { m with mirrorStale := true, mirrorIngestStopped := true, rowState := some "unknown" }

/-- `_mark_launch_recovered`. -/
def markLaunchRecovered (pid seq : ℤ) (remotePath : String) (m : DispatchMeta) : DispatchMeta :=
  { m with
    launchUnconfirmed := false
    launchReceipt := some ⟨some pid⟩
    rowState := some "launch_receipted"
    pidHint := some .alive
    remotePid := some pid
    remoteStatusPath := (given (some remotePath)).or m.remoteStatusPath
    lastMirrorSeq := some seq }

/-- **`ingest_dispatch_mirror`**, with the notes that the poll began with; nothing, if that raises. -/
def ingestDispatchMirror (s : Store) (notes : DispatchMeta) (x : Answers) :
    Option (Store × PollAction) :=
  match resolveRemoteStatusPath target notes with
  | none => some (s, .skipped)
  | some remotePath =>
    match x.fetch with
    | .failed =>
      if notes.launchUnconfirmed then resolveUnconfirmedWithoutStatus isoSeconds tokenText target s x
      else some (s, .fetchFailed)
    | .fetched content =>
      match ingest isoSeconds target.dispatchId s.file content with
      | .raised => none
      | .dispatchIdMismatch => some (s, .dispatchIdMismatch)
      | .validationFailed => some (s, .validationFailed)
      | .seqRegression => some ((s.note .regressed).mark markSeqRegression, .seqRegression)
      | .unchanged =>
        some (if notes.mirrorIngestStopped then
          s.mark (markIngested ((mirrorSeq isoSeconds s.file).getD 0)) else s, .unchanged)
      | .ingested r =>
        let file := writeStatus s.file x.source r.payload
        let s := { s with file := file }.note (.accepted (mirrorState isoSeconds file))
        let s := s.mark (markIngested r.seq)
        some (if notes.launchUnconfirmed then
          (receiptPid (Output.redactMapping r.payload)).elim s fun pid =>
            s.mark (markLaunchRecovered pid r.seq remotePath) else s, .ingested)

/-! ### A watch -/

/-- How a round of a watch ends. -/
inductive Round
  /-- The watch ends with an exit code and a state. -/
  | ended (exitCode : ℕ) (state : Option String)
  | raised
  /-- It goes on; the number for which the process was asked for last. -/
  | goesOn (identityCheckedSeq : Option ℤ)

/-- `_failure_terminal_needs_salvage_check`. -/
def failureTerminalNeedsSalvageCheck (state : Option String) : Bool :=
  state.any (· ∈ failureTerminalRecordStates ++ wedgedTerminalRecordStates)

/-- The watch has confirmed the end, if that is none that waits for salvage. -/
def Store.confirm (s : Store) (watcher : ℕ) (state : Option String) : Store :=
  if state.any (· ∈ salvageNeededStates) then s else s.note (.confirmed watcher)

/-- The deadline, at the end of a round; of a mirror at its end the code reads a variable that it
has not set. -/
def deadlineRound (s : Store) : Round :=
  let latest := mirrorState isoSeconds s.file
  if latest.any isTerminalState then .raised
  else if latest.any isRunningState then .ended 1 latest
  else if s.notes.launchUnconfirmed then .ended 1 (some "launch_unconfirmed")
  else .ended 2 latest

/-- The end of a round in which the process was not found dead. -/
def endRound (s : Store) (x : Answers) (identityCheckedSeq : Option ℤ) : Store × Round :=
  (s, if x.timedOut then deadlineRound isoSeconds s else .goesOn identityCheckedSeq)

/-- The part of a round in which the process may be asked for. -/
def identityRound (s : Store) (notes : DispatchMeta) (x : Answers) (watcher : ℕ)
    (identityCheckedSeq afterSeq : Option ℤ) : Store × Round :=
  if !notes.launchUnconfirmed ∧ x.quiet ∧ identityCheckedSeq ≠ afterSeq ∧ notes.launchReceipt.isSome then
    let asked := s.askIdentity x
    if x.identity = .dead ∧ !(mirrorState isoSeconds asked.file).any isTerminalState then
      match salvageNeededForDirtyWorktree isoSeconds target asked notes x "remote_launch_pid_dead" with
      | .raised => (asked, .raised)
      | .salvage s' => (s', .ended 0 (some "salvage_needed"))
      | .clean s' =>
        match writeWorkerDeadMirror isoSeconds target s' x with
        | none => (s', .raised)
        | some s'' => (s''.confirm watcher (some "worker_dead"), .ended 0 (some "worker_dead"))
    else endRound isoSeconds asked x afterSeq
  else endRound isoSeconds s x identityCheckedSeq

/-- The part of a round after the worktree of a failure was checked. -/
def terminalRound (s : Store) (notes : DispatchMeta) (x : Answers) (watcher : ℕ)
    (action : PollAction) (beforeSeq identityCheckedSeq : Option ℤ) : Store × Round :=
  let state := mirrorState isoSeconds s.file
  let afterSeq := (mirrorSeq isoSeconds s.file).or beforeSeq
  let fresh := action.ok && (mirrorSeq isoSeconds s.file).isSome &&
    (afterSeq ≠ beforeSeq || action = .ingested || action = .unchanged)
  if fresh ∧ state.any isTerminalState then
    ((s.mark fun m => { m with pidHint := some .dead }).confirm watcher state, .ended 0 state)
  else if !action.ok ∧ state.any isTerminalState then (s, .ended 2 state)
  else
    identityRound isoSeconds target s notes x watcher
      (if (mirrorSeq isoSeconds s.file).isSome ∧ afterSeq ≠ beforeSeq then none
        else identityCheckedSeq) afterSeq

/-- **One round of `watch_until_terminal`.** -/
def watchRound (s : Store) (x : Answers) (watcher : ℕ) (identityCheckedSeq : Option ℤ) :
    Store × Round :=
  let notes := s.notes
  let beforeSeq := mirrorSeq isoSeconds s.file
  match ingestDispatchMirror isoSeconds tokenText target s notes x with
  | none => (s, .raised)
  | some (s, action) =>
    if (action = .ingested ∨ action = .unchanged) ∧
        failureTerminalNeedsSalvageCheck (mirrorState isoSeconds s.file) then
      match salvageNeededForDirtyWorktree isoSeconds target s notes x
          "self_reported_failure_terminal" with
      | .raised => (s, .raised)
      | .salvage s' => (s', .ended 0 (some "salvage_needed"))
      | .clean s' =>
        terminalRound isoSeconds target s' notes x watcher action beforeSeq identityCheckedSeq
    else terminalRound isoSeconds target s notes x watcher action beforeSeq identityCheckedSeq

/-- **`release_lock_on_confirmed_terminal`.** -/
def releaseLockOnConfirmedTerminal (s : Store) (state : Option String) (clock : ℤ) : Store :=
  if state.any isTerminalState ∧ !state.any (· ∈ salvageNeededStates) then
    match resolveAccountLockForDispatch tokenText s.locks target.dispatchId s.notes with
    | none => s
    | some lock =>
      if lock.accountKey = "" ∨ tokenText lock.fencingToken = "" then s
      else
        match releaseAccountLock s.locks clock lock ("terminal_confirmed:" ++ state.getD "") with
        | none => s
        | some (locks, stored) => s.noteReleased isoSeconds locks stored
  else s

end GoalFlight.Fleet
