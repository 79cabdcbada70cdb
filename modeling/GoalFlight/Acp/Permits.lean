import Mathlib.Data.Rat.Defs
import Mathlib.Algebra.Order.Ring.Rat
import GoalFlight.Library.Machine
import GoalFlight.Library.Threads

/-!
# ACP: inline permissions

A worker that asks for a permission publishes a request file and polls for a decision file, which
an orchestrator writes.  An acknowledgement extends the time it waits.  Each call takes its steps
on one directory, between those of all others: workers that hold a request open, orchestrators that
write decisions, and sweeps of old files.
-/

namespace GoalFlight.Acp

/-! ### Decisions -/

/-- An option that the worker offers. -/
structure PermissionOption where
  kind : Option String
  optionId : Option String
deriving DecidableEq

/-- A decision file that is well formed. -/
structure Decision where
  key : String
  allow : Bool
  optionId : Option String
deriving DecidableEq

/-- The answer to the worker. -/
inductive Response
  | selected (optionId : String)
  | cancelled

/-- The id of an option, where it has one. -/
def PermissionOption.id? (option : PermissionOption) : Option String :=
  option.optionId.filter (· ≠ "")

/-- Its kind starts with `allow_`. -/
def PermissionOption.isAllow (option : PermissionOption) : Bool :=
  option.kind.any fun kind => kind.startsWith "allow_"

/-- `_select_allow_option`. -/
def selectAllowOption (options : List PermissionOption) : Option String :=
  let ofKind (kind : String) :=
    options.findSome? fun option => if option.kind = some kind then option.id? else none
  ofKind "allow_once" <|> ofKind "allow_always" <|>
    options.findSome? fun option => if option.isAllow then option.id? else none

/-- The ids of the allow options that are offered. -/
def offered (options : List PermissionOption) : List String :=
  options.filterMap fun option => if option.isAllow then option.id? else none

/-- `_outcome_from_decision`. -/
def outcomeFromDecision (d : Decision) (options : List PermissionOption) : Response :=
  if d.allow then
    match d.optionId.filter (· ≠ "") with
    | some chosen => if (offered options).contains chosen then .selected chosen else .cancelled
    | none =>
      match selectAllowOption options with
      | some chosen => .selected chosen
      | none => .cancelled
  else .cancelled

/-- **An allow** is of a decision that allows, and names an offered allow option or none. -/
theorem outcomeFromDecision_selected {d : Decision} {options : List PermissionOption}
    {chosen : String} (h : outcomeFromDecision d options = .selected chosen) :
    d.allow = true ∧
      ((d.optionId = some chosen ∧ chosen ∈ offered options) ∨
        (d.optionId.filter (· ≠ "") = none ∧ selectAllowOption options = some chosen)) := by
  unfold outcomeFromDecision at h
  split at h
  · rename_i hallow
    refine ⟨hallow, ?_⟩
    split at h
    · rename_i named hnamed
      split at h
      · rename_i hoffered
        cases h
        exact .inl ⟨(Option.filter_eq_some_iff.mp hnamed).1, by simpa using hoffered⟩
      · cases h
    · rename_i hnone
      split at h
      · rename_i selected hselected
        cases h
        exact .inr ⟨hnone, hselected⟩
      · cases h
  · cases h

/-! ### The directory -/

/-- What is at a decision path: a regular file, by its inode, or something else. -/
inductive Node
  | regular (inode : ℕ) (content : Option Decision)
  | special
  | directory

/-- A file that has a modification time. -/
structure Stamped (α : Type) where
  content : α
  mtime : ℚ

/-- The files of a key. -/
inductive PermitPath
  | request (key : String)
  | decision (key : String)
  | ack (key : String)
deriving DecidableEq

/-- Its key. -/
def PermitPath.key : PermitPath → String
  | .request key => key
  | .decision key => key
  | .ack key => key

/-- **The directory**, and the liveness holds.  A request's content says whether it is small enough
to be read. -/
structure PermissionDir where
  request : String → Option (Stamped Bool)
  decision : String → Option (Stamped Node)
  ack : String → Option (Stamped Unit)
  /-- `inline_held_permissions`, of each worker. -/
  held : ℕ → String → Bool
  nextInode : ℕ
  /-- Which call has opened a key, and which one has made an inode. -/
  opener : String → Option ℕ
  author : ℕ → Option ℕ
  /-- The first decision that became readable for a key. -/
  firstReadable : String → Option Decision

namespace PermissionDir

/-- Nothing has been asked. -/
def start : PermissionDir where
  request := fun _ => none
  decision := fun _ => none
  ack := fun _ => none
  held := fun _ _ => false
  nextInode := 0
  opener := fun _ => none
  author := fun _ => none
  firstReadable := fun _ => none

variable (dir : PermissionDir)

/-- `read_decision`: of a regular file that is a decision for the key. -/
def readDecision (key : String) : Option Decision :=
  match (dir.decision key).map Stamped.content with
  | some (.regular _ (some d)) => if d.key = key then some d else none
  | _ => none

/-- The first decision that is readable is noted. -/
def noted (key : String) : PermissionDir :=
  match dir.firstReadable key, dir.readDecision key with
  | none, some d => { dir with firstReadable := Function.update dir.firstReadable key (some d) }
  | _, _ => dir

/-- Something else is at the decision path. -/
def putDecision (key : String) (file : Option (Stamped Node)) : PermissionDir :=
  { dir with decision := Function.update dir.decision key file }

/-- `os.unlink`: not of a directory. -/
def unlinkDecision (key : String) : PermissionDir :=
  match (dir.decision key).map Stamped.content with
  | some .directory => dir
  | _ => dir.putDecision key none

/-- A file is removed. -/
def remove : PermitPath → PermissionDir
  | .request key => { dir with request := Function.update dir.request key none }
  | .decision key => dir.unlinkDecision key
  | .ack key => { dir with ack := Function.update dir.ack key none }

/-- `st_mtime`, of what is there. -/
def mtime? : PermitPath → Option ℚ
  | .request key => (dir.request key).map Stamped.mtime
  | .decision key => (dir.decision key).map Stamped.mtime
  | .ack key => (dir.ack key).map Stamped.mtime

/-- A new regular file at a decision path. -/
def createDecision (p : ℕ) (key : String) (content : Option Decision) (now : ℚ) : PermissionDir :=
  { dir.putDecision key (some ⟨.regular dir.nextInode content, now⟩) with
    nextInode := dir.nextInode + 1
    author := Function.update dir.author dir.nextInode (some p) }

/-- The file of an open descriptor is written, where it is still at its path. -/
def fillDecision (key : String) (inode : ℕ) (content : Option Decision) (now : ℚ) :
    PermissionDir :=
  match (dir.decision key).map Stamped.content with
  | some (.regular i _) =>
    if i = inode then dir.putDecision key (some ⟨.regular i content, now⟩) else dir
  | _ => dir

end PermissionDir

/-- A request's file is there and can be read, and it has no decision yet: `list_requests` reads the
listing, the request and the decision one after another. -/
def listsRequest (listing requests decisions : PermissionDir) (key : String) : Bool :=
  (listing.request key).isSome && (requests.request key).any (·.content) &&
    (decisions.readDecision key).isNone

/-! ### Calls -/

/-- `DEFAULT_SWEEP_AGE_S`. -/
def sweepAgeS : ℚ := 3600

/-- A request that a worker holds open. -/
structure Hold where
  worker : ℕ
  key : String
  holdId : String
  options : List PermissionOption
  /-- Its record is no larger than `_MAX_JSON_BYTES`. -/
  small : Bool
deriving DecidableEq

/-- How a hold ends. -/
inductive HoldOutcome
  | decided (d : Decision)
  | controllerTimeout
  | userTimeout
  | cancelled
  | ipcError
deriving DecidableEq

/-- The answer of an outcome. -/
def HoldOutcome.response (options : List PermissionOption) : HoldOutcome → Response
  | .decided d => outcomeFromDecision d options
  | _ => .cancelled

/-- Where a hold is in `_await_inline_decision`. -/
inductive HoldAt
  | writeRequest
  | readDecision
  | readAck
  | checkDeadline
  | readAgain
  | sleep
deriving DecidableEq

/-- Where a call is in `write_decision`. -/
inductive WriteAt
  | look
  | readDecision
  | unlinkMalformed
  | lookAgain
  | unlinkSpecial
  | link
  | create
  | fill (inode : ℕ)
deriving DecidableEq

/-- Where a call is. -/
inductive Place
  | idle
  | holding (h : Hold) (acked : Bool) (pc : HoldAt)
  /-- `clear`, with these files still to unlink. -/
  | clearing (h : Hold) (outcome : HoldOutcome) (left : List PermitPath)
  | returned (h : Hold) (outcome : HoldOutcome)
  | writing (d : Decision) (pc : WriteAt)
  /-- `sweep` has found an old file. -/
  | sweeping (path : PermitPath)
deriving DecidableEq

/-- The hold of a call. -/
def Place.hold? : Place → Option Hold
  | .holding h _ _ => some h
  | .clearing h _ _ => some h
  | .returned h _ => some h
  | _ => none

/-- The outcome of a hold, once it has one. -/
def Place.outcome? : Place → Option HoldOutcome
  | .clearing _ outcome _ => some outcome
  | .returned _ outcome => some outcome
  | _ => none

/-- What the system answers to a step: the wall clock, whether the deadline is over or the step
succeeds, and whether the hold is cancelled at its await. -/
structure Answer where
  now : ℚ
  ok : Bool
  cancelled : Bool

/-- The files of a key, in the order of `clear`. -/
def filesOf (key : String) : List PermitPath := [.request key, .decision key, .ack key]

/-- The liveness hold of a request is set or released. -/
def PermissionDir.setHeld (dir : PermissionDir) (h : Hold) (value : Bool) : PermissionDir :=
  let ofWorker := Function.update (dir.held h.worker) h.holdId value
  { dir with held := Function.update dir.held h.worker ofWorker }

/-- The end of a hold: its liveness hold is released, and its files are to be cleared. -/
def finish (dir : PermissionDir) (h : Hold) (outcome : HoldOutcome) : PermissionDir × Place :=
  (dir.setHeld h false, .clearing h outcome (filesOf h.key))

/-- The next step of a hold. -/
def holdTurn (a : Answer) (dir : PermissionDir) (h : Hold) (acked : Bool) :
    HoldAt → PermissionDir × Place
  | .writeRequest =>
    if a.ok then
      ({ dir with request := Function.update dir.request h.key (some ⟨h.small, a.now⟩) },
        .holding h acked .readDecision)
    else finish dir h .ipcError
  | .readDecision =>
    match dir.readDecision h.key with
    | some d => finish dir h (.decided d)
    | none => (dir, .holding h acked .readAck)
  | .readAck => (dir, .holding h (acked || (dir.ack h.key).isSome) .checkDeadline)
  | .checkDeadline => (dir, .holding h acked (if a.ok then .readAgain else .sleep))
  | .readAgain =>
    match dir.readDecision h.key with
    | some d => finish dir h (.decided d)
    | none => finish dir h (if acked then .userTimeout else .controllerTimeout)
  | .sleep =>
    if a.cancelled then finish dir h .cancelled else (dir, .holding h acked .readDecision)

/-- The next step of `write_decision`. -/
def writeTurn (a : Answer) (p : ℕ) (dir : PermissionDir) (d : Decision) :
    WriteAt → PermissionDir × Place
  | .look =>
    match (dir.decision d.key).map Stamped.content with
    | some (.regular _ _) => (dir, .writing d .readDecision)
    | _ => (dir, .writing d .lookAgain)
  | .readDecision =>
    if (dir.readDecision d.key).isSome then (dir, .idle) else (dir, .writing d .unlinkMalformed)
  | .unlinkMalformed => (dir.unlinkDecision d.key, .writing d .lookAgain)
  | .lookAgain =>
    match (dir.decision d.key).map Stamped.content with
    | some .special => (dir, .writing d .unlinkSpecial)
    | _ => (dir, .writing d .link)
  | .unlinkSpecial => (dir.unlinkDecision d.key, .writing d .link)
  | .link =>
    if !a.ok then (dir, .writing d .create)
    else if (dir.decision d.key).isSome then (dir, .idle)
    else ((dir.createDecision p d.key (some d) a.now).noted d.key, .idle)
  | .create =>
    if (dir.decision d.key).isSome then (dir, .idle)
    else (dir.createDecision p d.key none a.now, .writing d (.fill dir.nextInode))
  | .fill inode =>
    ((dir.fillDecision d.key inode (if a.ok then some d else none) a.now).noted d.key, .idle)

/-- **The next step of a call.** -/
def permitTurn (a : Answer) (p : ℕ) (dir : PermissionDir) : Place → PermissionDir × Place
  | .idle => (dir, .idle)
  | .holding h acked pc => holdTurn a dir h acked pc
  | .clearing h outcome [] => (dir, .returned h outcome)
  | .clearing h outcome (path :: left) => (dir.remove path, .clearing h outcome left)
  | .returned h outcome => (dir, .returned h outcome)
  | .writing d pc => writeTurn a p dir d pc
  | .sweeping path => (dir.remove path, .idle)

/-! ### Steps -/

/-- The directory, and where each call is. -/
abbrev PermitState := Threads.State PermissionDir Place

/-- What can happen. -/
inductive PermitAction
  /-- A worker asks for a permission, under a key of its own. -/
  | ask (p : ℕ) (h : Hold)
  /-- An orchestrator calls `write_decision`. -/
  | decide (p : ℕ) (d : Decision)
  /-- A sweep looks at a file. -/
  | look (p : ℕ) (path : PermitPath) (now : ℚ)
  /-- An orchestrator calls `write_ack`. -/
  | ack (key : String) (now : ℚ)
  /-- A malformed, partial or irregular file appears at a decision path. -/
  | litter (key : String) (node : Node) (now : ℚ)
  /-- A call takes its next step. -/
  | turn (p : ℕ) (a : Answer)

/-- `make_key`: nothing has the key yet. -/
def PermissionDir.isFresh (dir : PermissionDir) (key : String) : Bool :=
  (dir.opener key).isNone && (dir.request key).isNone && (dir.decision key).isNone &&
    (dir.ack key).isNone && (dir.firstReadable key).isNone

/-- What is at a path, with an inode of its own where it is a regular file. -/
def PermissionDir.litter (dir : PermissionDir) (key : String) (node : Node) (now : ℚ) :
    PermissionDir :=
  match node with
  | .regular _ _ =>
    { dir.putDecision key (some ⟨.regular dir.nextInode none, now⟩) with
      nextInode := dir.nextInode + 1 }
  | node => dir.putDecision key (some ⟨node, now⟩)

/-- One step of the calls. -/
def permitStep (s : PermitState) : PermitAction → PermitState
  | .ask p h =>
    match s.place p with
    | .idle =>
      if s.shared.isFresh h.key then
        s.turn p ({ s.shared.setHeld h true with
          opener := Function.update s.shared.opener h.key (some p) },
          .holding h false .writeRequest)
      else s
    | _ => s
  | .decide p d =>
    match s.place p with
    | .idle => s.turn p (s.shared, .writing d .look)
    | _ => s
  | .look p path now =>
    match s.place p with
    | .idle =>
      if (s.shared.mtime? path).any fun mtime => mtime < now - sweepAgeS then
        s.turn p (s.shared, .sweeping path)
      else s
    | _ => s
  | .ack key now =>
    s.environment { s.shared with ack := Function.update s.shared.ack key (some ⟨(), now⟩) }
  | .litter key node now =>
    if (s.shared.decision key).isNone then s.environment (s.shared.litter key node now) else s
  | .turn p a => s.turn p (permitTurn a p s.shared (s.place p))

/-- No call has been made. -/
def PermitState.start : PermitState := ⟨PermissionDir.start, fun _ => .idle⟩

end GoalFlight.Acp
