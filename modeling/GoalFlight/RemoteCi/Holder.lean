import Mathlib.Data.Int.Notation
import GoalFlight.Library.Machine
import GoalFlight.Library.Threads

/-!
# Remote CI: the holder of a lease

A lease has a run directory and a holder process.  The holder waits for admission and for a command,
launches it as a job, supervises the job to its end and releases the lease.  Requests of the
controller read and write the same directory: `start`, `attach`, `release` and `cancel` exclude each
other by `command.lock`, which the holder does not take.
-/

namespace GoalFlight.RemoteCi

/-! ### Outcomes -/

/-- How a run ended, as the holder or a request saw it. -/
inductive Outcome
  /-- The leader is gone, and launchd knows its exit code or not. -/
  | exited (code : Option ℤ)
  | cancelled
  | deadline
  | capacityRefused
  | launchFailed
  /-- The workload exited before its coalition was recorded. -/
  | lost (code : Option ℤ)
  /-- `run_holder` raised. -/
  | raised
deriving DecidableEq

/-! ### The run directory -/

/-- `state` of `lease.json`. -/
inductive LeaseStatus
  | queued
  | admitted
  | running
  | draining
  | released
deriving DecidableEq

/-- Where the holder is in `run_holder`. -/
inductive HolderAt
  /-- The admission loop: `release.json`, then an attempt. -/
  | queued
  | attempt
  /-- The loop that waits for `command.json`: its three checks. -/
  | waitCommand
  | waitRelease
  | waitDeadline
  | prepareSlot
  | run
  | floor
  | submit
  | submitted
  | noteLaunchFailed
  | writeLaunchFailed
  | clearLost
  | writeLost
  | awaitExec
  /-- The loop of supervision. -/
  | poll
  | check (same : Option Bool)
  | clearKilled
  | captureExit
  | clearExited
  | writeResult
  | clearAgain
  /-- The exception handler. -/
  | failed
  /-- `_release_holder`. -/
  | drain
  | clearDrained
  | publish (cleared : Bool)
  | markReleased
  | gone
deriving DecidableEq

/-- **The run directory**, and where the holder is. -/
structure Run where
  /-- `lease.json`. -/
  status : LeaseStatus
  pending : Option Outcome
  exit : Option ℤ
  deadlineSet : Bool
  /-- `owner.json`. -/
  owner : ℕ
  /-- `command.json`, `release.json` and `cancel.json`. -/
  command : Bool
  release : Bool
  cancel : Bool
  /-- `result.json`. -/
  result : Option Outcome
  /-- Which request has `command.lock`. -/
  commandLock : Option ℕ
  /-- `holder.lock` is held until the holder is gone. -/
  holder : HolderAt
  /-- The holder has a token. -/
  token : Bool
  /-- How often the command was submitted, whether its leader was seen, and whether it was gone. -/
  launches : ℕ
  seen : Bool
  leaderGone : Bool
  /-- A deadline of the command was found over. -/
  late : Bool

/-- A lease that was enqueued. -/
def Run.start (owner : ℕ) : Run where
  status := .queued
  pending := none
  exit := none
  deadlineSet := false
  owner := owner
  command := false
  release := false
  cancel := false
  result := none
  commandLock := none
  holder := .queued
  token := false
  launches := 0
  seen := false
  leaderGone := false
  late := false

/-! ### The holder -/

/-- How `_submit_workload` ends. -/
inductive Launch
  | launched
  /-- It is not known whether the job exists, or it has exited already. -/
  | lost
  | error

/-- What the world answers to a step of the holder. -/
structure HolderAnswer where
  /-- The step raises. -/
  raised : Bool
  /-- The step succeeds: the slot is prepared, the tree is proven dead. -/
  ok : Bool
  /-- The clock is past the deadline of the step. -/
  late : Bool
  /-- Admission is granted, or the resource floor refuses. -/
  granted : Bool
  launch : Launch
  same : Option Bool
  /-- The exit code, where launchd has it. -/
  code : Option ℤ

namespace Run

variable (run : Run) (a : HolderAnswer)

/-- The holder goes on. -/
def goto (holder : HolderAt) : Run := { run with holder := holder }

/-- `_capture_exit_status`: a code that is known stays, and without a job there is none. -/
def capture (code : Option ℤ) : Run :=
  if run.launches = 0 then run else { run with exit := run.exit <|> code }

/-- `_publish_pending`. -/
def publishPending : Run :=
  match run.result, run.pending, run.exit with
  | some _, _, _ => run
  | none, some outcome, _ => { run with result := some outcome }
  | none, none, some code => { run with result := some (.exited (some code)) }
  | none, none, none => run

/-- The outcome that ends the supervision. -/
def pend (outcome : Outcome) : Run := { run with pending := some outcome }

/-- The exception leads to the handler, and out of `_release_holder`. -/
def raise : Run :=
  match run.holder with
  | .failed => run.goto .drain
  | .drain => run.goto .gone
  | .clearDrained => run.goto .gone
  | .publish _ => run.goto .gone
  | .markReleased => run.goto .gone
  | .gone => run
  | _ => run.goto .failed

/-- A look at the leader, at `cancel.json` and at the clock. -/
def supervise (same : Option Bool) : Run :=
  if run.cancel then (run.pend .cancelled).goto .clearKilled
  else if a.late then { run.pend .deadline with late := true, holder := .clearKilled }
  else
    match same with
    | none => run.goto .poll
    | some true => run.goto .poll
    | some false => { run with leaderGone := true, holder := .captureExit }

/-- **The next step of the holder**, where it does not raise. -/
def next : Run :=
  match run.holder with
  | .queued => if run.release then run.goto .drain else run.goto .attempt
  | .attempt =>
    -- the lease is written last, and its failure is passed over
    if a.granted then { run with
      status := if a.ok then .admitted else run.status, token := true, holder := .waitCommand }
    else run.goto .queued
  | .waitCommand => run.goto (if run.command then .prepareSlot else .waitRelease)
  | .waitRelease => run.goto (if run.release then .drain else .waitDeadline)
  | .waitDeadline => run.goto (if a.late then .drain else .waitCommand)
  | .prepareSlot => run.goto (if a.ok then .run else .drain)
  | .run => { run with status := .running, deadlineSet := true, holder := .floor }
  | .floor =>
    if a.granted then run.goto .submit
    else { run with result := some .capacityRefused, holder := .drain }
  | .submit => { run with launches := run.launches + 1, holder := .submitted }
  | .submitted =>
    match a.launch with
    | .launched => run.goto .awaitExec
    | .lost => (run.capture a.code).goto .clearLost
    | .error => run.goto .noteLaunchFailed
  | .noteLaunchFailed => (run.pend .launchFailed).goto .writeLaunchFailed
  | .writeLaunchFailed => { run with result := some .launchFailed, holder := .drain }
  | .clearLost => (run.capture a.code).goto (if a.ok then .writeLost else .drain)
  | .writeLost => { run with result := some (.lost run.exit), holder := .drain }
  | .awaitExec => { run with seen := true, holder := .poll }
  | .poll => run.goto (.check a.same)
  | .check same => run.supervise a same
  | .clearKilled => (run.capture a.code).goto (if a.ok then .writeResult else .poll)
  | .captureExit =>
    let run := run.capture a.code
    (run.pend (.exited run.exit)).goto .clearExited
  | .clearExited => (run.capture a.code).goto (if a.ok then .writeResult else .drain)
  | .writeResult => { run with result := run.pending, holder := .clearAgain }
  | .clearAgain => run.goto (if a.ok then .drain else .clearAgain)
  | .failed => { run with result := some .raised, holder := .drain }
  | .drain =>
    if run.token then { run with status := .draining, holder := .clearDrained }
    else { run with status := .released, holder := .gone }
  | .clearDrained => (run.capture a.code).goto (.publish a.ok)
  | .publish true => run.publishPending.goto .markReleased
  | .publish false => { run with status := .draining, holder := .gone }
  | .markReleased => { run with status := .released, holder := .gone }
  | .gone => run

end Run

/-- **The next step of the holder.** -/
def holderStep (a : HolderAnswer) (run : Run) : Run := if a.raised then run.raise else run.next a

/-! ### Requests -/

/-- A request on the lease, under its token. -/
inductive Request
  | start
  | attach (owner : ℕ)
  | release (expected : Option ℕ)
  | cancel (expected : ℕ)
deriving DecidableEq

/-- Where a request is. -/
inductive RequestAt
  | idle
  /-- Before `command.lock`. -/
  | lock (request : Request)
  | startState
  | startHolder
  | startPending
  | startCommand
  | startWrite
  | attachState (owner : ℕ)
  | attachPending (owner : ℕ)
  | attachHolder (owner : ℕ)
  | attachWrite (owner : ℕ)
  | releaseOwner (expected : Option ℕ)
  | releaseCommand
  | releaseWrite
  | cancelOwner (expected : ℕ)
  | cancelHolder (expected : ℕ)
  | cancelWrite (expected : ℕ)
  | cancelCommand (expected : ℕ)
  | cancelRelease (expected : ℕ)
  /-- `finish_dead_workload`, past the deadline or not. -/
  | finishDrain (expected : ℕ) (deadline : Bool)
  | finishClear (expected : ℕ) (deadline : Bool)
  | finishRelease (expected : ℕ) (deadline cleared : Bool)
  /-- Answered, with success or not. -/
  | answered (success : Bool)
deriving DecidableEq

/-- What the world answers to a step of a request. -/
structure RequestAnswer where
  ok : Bool
  late : Bool
  code : Option ℤ

/-- Its first place under `command.lock`. -/
def Request.first : Request → RequestAt
  | .start => .startState
  | .attach owner => .attachState owner
  | .release expected => .releaseOwner expected
  | .cancel expected => .cancelOwner expected

/-- `command.lock` is closed with the answer. -/
def Run.answer (run : Run) (success : Bool) : Run × RequestAt :=
  ({ run with commandLock := none }, .answered success)

/-- `finish_dead_workload`, at the end: the outcome is published, and the lease released. -/
def Run.finishDead (run : Run) (deadline : Bool) : Run :=
  let run := if deadline && run.result.isNone && run.pending.isNone then run.pend .deadline else run
  { run.publishPending with status := .released }

/-- **The next step of a request.** -/
def requestTurn (a : RequestAnswer) (p : ℕ) (run : Run) : RequestAt → Run × RequestAt
  | .idle => (run, .idle)
  | .answered success => (run, .answered success)
  | .lock request =>
    if run.commandLock = none then ({ run with commandLock := some p }, request.first)
    else (run, .lock request)
  | .startState => if run.status = .admitted then (run, .startHolder) else run.answer false
  | .startHolder => if run.holder = .gone then run.answer false else (run, .startPending)
  | .startPending => if run.release || run.cancel then run.answer false else (run, .startCommand)
  | .startCommand => if run.command then run.answer false else (run, .startWrite)
  | .startWrite => { run with command := true }.answer true
  | .attachState owner =>
    if run.status = .queued then run.answer false
    else if run.status = .released then (run, .attachWrite owner)
    else (run, .attachPending owner)
  | .attachPending owner =>
    if run.cancel || run.release then run.answer false else (run, .attachHolder owner)
  | .attachHolder owner =>
    -- the token's lock goes with the holder
    if run.holder = .gone then run.answer false else (run, .attachWrite owner)
  | .attachWrite owner => { run with owner := owner }.answer true
  | .releaseOwner expected =>
    if expected.all (· = run.owner) then (run, .releaseCommand) else run.answer false
  | .releaseCommand => if run.command then run.answer false else (run, .releaseWrite)
  | .releaseWrite => { run with release := true }.answer true
  | .cancelOwner expected =>
    if expected = run.owner then (run, .cancelHolder expected) else run.answer false
  | .cancelHolder expected =>
    if run.holder ≠ .gone then (run, .cancelWrite expected)
    else if run.status = .released then run.answer false
    else if run.deadlineSet && a.late then ({ run with late := true }, .finishDrain expected true)
    else if 0 < run.launches || run.status = .draining then (run, .finishDrain expected false)
    else run.answer false
  | .cancelWrite expected => ({ run with cancel := true }, .cancelCommand expected)
  | .cancelCommand expected =>
    if run.command then run.answer true else (run, .cancelRelease expected)
  | .cancelRelease _ => { run with release := true }.answer true
  | .finishDrain expected deadline =>
    if run.status = .released then run.answer false
    else ({ run with status := .draining }, .finishClear expected deadline)
  | .finishClear expected deadline => (run.capture a.code, .finishRelease expected deadline a.ok)
  | .finishRelease _ deadline cleared =>
    if run.status = .released then run.answer false
    else if cleared then (run.finishDead deadline).answer true
    else { run with status := .draining }.answer false

/-! ### Steps -/

/-- The run, and where each request is. -/
abbrev LeaseState := Threads.State Run RequestAt

/-- What can happen. -/
inductive LeaseAction
  | holder (a : HolderAnswer)
  | call (p : ℕ) (request : Request)
  | turn (p : ℕ) (a : RequestAnswer)

/-- One step. -/
def leaseStep (s : LeaseState) : LeaseAction → LeaseState
  | .holder a => s.environment (holderStep a s.shared)
  | .call p request =>
    match s.place p with
    | .idle => s.turn p (s.shared, .lock request)
    | _ => s
  | .turn p a => s.turn p (requestTurn a p s.shared (s.place p))

/-- The lease was enqueued. -/
def LeaseState.start (owner : ℕ) : LeaseState := ⟨Run.start owner, fun _ => .idle⟩

end GoalFlight.RemoteCi
