import Mathlib.Data.Int.Notation
import Mathlib.Data.List.TakeWhile
import Mathlib.Tactic.Common

/-!
# ACP: pidfiles of workers

A controller records the workers it has started in a pidfile.  A later sweep goes through all
pidfiles: it kills workers whose controller is gone, and it unlinks the files that are of no more
use.  What a sweep does to an entry goes by what the probes of its process answer; a probe may
leave the question open.
-/

namespace GoalFlight.Acp

/-! ### Identities -/

/-- What is recorded, or probed, of a process. -/
structure Identity where
  pid : Option ℤ
  lstart : Option String
  startToken : Option String
  probeError : Bool
deriving DecidableEq

/-- A text that is there and not empty. -/
def given (text : Option String) : Option String := text.filter (· ≠ "")

/-- The reasons of a comparison. -/
inductive Reason
  | dead
  | identityIndeterminate
  | identityPidMismatch
  | pidReusedStartToken
  | pidReusedLstart
  | live
deriving DecidableEq

/-- Both texts are given, and they differ. -/
def differ (a b : Option String) : Bool := (given a).any fun a => (given b).any fun b => a ≠ b

/-- `compare_process_identities`. -/
def compareProcessIdentities (pid : ℤ) (expected : Identity) (current : Option Identity) :
    Bool × Reason :=
  match current with
  | none => (false, .dead)
  | some current =>
    if current.probeError then (true, .identityIndeterminate)
    else if expected.pid.any fun p => p ≠ 0 && p ≠ pid then (false, .identityPidMismatch)
    else if differ expected.startToken current.startToken then (false, .pidReusedStartToken)
    else if differ expected.lstart current.lstart then (false, .pidReusedLstart)
    else if given expected.startToken = none || given current.startToken = none then
      (true, .identityIndeterminate)
    else (true, .live)

/-- `compare_fine_process_identities`. -/
def compareFineProcessIdentities (pid : ℤ) (expected : Identity) (current : Option Identity) :
    Bool × Reason :=
  match current with
  | none => (false, .dead)
  | some identity =>
    if identity.probeError then (false, .identityIndeterminate)
    else if given expected.startToken = none || given identity.startToken = none then
      (false, .identityIndeterminate)
    else compareProcessIdentities pid expected current

theorem compareFineProcessIdentities_matched {pid : ℤ} {expected : Identity}
    {current : Option Identity} (h : (compareFineProcessIdentities pid expected current).1 = true) :
    (compareFineProcessIdentities pid expected current).2 = .live := by
  unfold compareFineProcessIdentities compareProcessIdentities at *
  cases current with
  | none => cases h
  | some identity =>
    simp only at h ⊢
    split at h
    · cases h
    · rename_i herror
      rw [if_neg herror]
      split at h
      · cases h
      · rename_i htokens
        rw [if_neg htokens, if_neg herror]
        split at h
        · cases h
        · rename_i hpid
          rw [if_neg hpid]
          split at h
          · cases h
          · rename_i htoken
            rw [if_neg htoken]
            split at h
            · cases h
            · rename_i hlstart
              rw [if_neg hlstart, if_neg htokens]

/-- **The process is not of that generation**: it is gone, or its pid is another's by now. -/
def Reason.provesGone : Reason → Bool
  | .dead | .pidReusedStartToken | .pidReusedLstart => true
  | _ => false

/-! ### Files -/

/-- `goalflight_compat.is_windows`. -/
inductive Platform
  | posix
  | windows

/-- An entry of a pidfile. -/
structure Entry where
  /-- The pid, where it is an `int`. -/
  pid : Option ℤ
  /-- What `int` makes of the pgid, where it makes something of it. -/
  pgid : Option ℤ
  agent : String
  detached : Bool
  controllerIdentity : Option Identity
  workerIdentity : Option Identity
  /-- `creation_time`, on Windows. -/
  creationTime : Bool
deriving DecidableEq

/-- What the probes of an entry's process answer, when they are asked. -/
structure Answers where
  /-- `_ps_meta` has an answer. -/
  psMeta : Bool
  /-- `process_identity`, once and once more. -/
  identity : Option Identity
  identityAgain : Option Identity
  /-- `pid_liveness`, once and once more. -/
  liveness : Option Bool
  livenessAgain : Option Bool
  /-- `_pgid_liveness`. -/
  group : Option Bool
  /-- The check of `creation_time` that `kill_pid` makes on Windows. -/
  creationMatches : Bool
  /-- The signal is delivered. -/
  delivered : Bool
deriving DecidableEq

/-- A pidfile: whose it is (`none` is a file that is of no controller's name, `some none` an
unowned one), whether it is of a bash-tail launcher, and its lines, where it can be read; a line
that is no entry is `none`. -/
structure Pidfile where
  owner : Option (Option ℤ)
  bashTail : Bool
  lines : Option (List (Option (Entry × Answers)))

/-- `entries`. -/
def Pidfile.entries (file : Pidfile) : List (Entry × Answers) :=
  (file.lines.getD []).filterMap id

/-! ### One entry -/

/-- What a probe of an entry's process has answered. -/
inductive Probe
  | identity (reason : Reason)
  | liveness (answer : Option Bool)
  | group (answer : Option Bool)
deriving DecidableEq

/-- A signal that is sent, to a group or to a process, and whether it is delivered. -/
inductive Signal
  | group (pgid : ℤ) (delivered : Bool)
  | process (pid : ℤ) (delivered : Bool)
deriving DecidableEq

/-- `killed_worker`. -/
def Signal.delivered : Signal → Bool
  | .group _ delivered | .process _ delivered => delivered

/-- What an entry comes to: the file is to be kept, the entry lets it go, or the sweep ends with an
exception. -/
inductive Fate
  | keeps
  | lets
  | raises
deriving DecidableEq

/-- What has been done for an entry. -/
structure Handled where
  fate : Fate
  probes : List Probe
  signal : Option Signal

/-- `"-bash-tail"` at the end of the agent. -/
def Entry.isBashTail (e : Entry) : Bool := e.agent.endsWith "-bash-tail"

/-- `_positive_pid`, and no init. -/
def isTarget (pid : ℤ) : Bool := decide (1 < pid)

/-- `group_not_proven_gone`, at the end of an entry: there is no `os.killpg` on Windows. -/
def letGroup (platform : Platform) (pgid : ℤ) (a : Answers) (probes : List Probe)
    (signal : Option Signal) : Handled :=
  if pgid ≤ 1 then ⟨.keeps, probes, signal⟩
  else
    match platform with
    | .windows => ⟨.raises, probes, signal⟩
    | .posix =>
      ⟨if a.group ≠ some false then .keeps else .lets, probes ++ [.group a.group], signal⟩

/-- An answer that does not say that there is no such process. -/
def maybeAlive (answer : Option Bool) : Bool := answer ≠ some false

/-- `protected_live`, and the probes it is of. -/
def protectedLive (platform : Platform) (fallsBack : Bool) (pid : ℤ) (e : Entry) (a : Answers) :
    Bool × List Probe :=
  match platform with
  | .windows => (maybeAlive a.liveness, [.liveness a.liveness])
  | .posix =>
    let first :=
      match e.workerIdentity with
      | some recorded =>
        let compared := compareProcessIdentities pid recorded a.identity
        (compared.1, [Probe.identity compared.2])
      | none => (maybeAlive a.liveness, [.liveness a.liveness])
    if fallsBack && !a.psMeta then
      (maybeAlive a.livenessAgain, first.2 ++ [.liveness a.livenessAgain])
    else first

/-- An entry whose worker is no ghost for want of a live owner. -/
def handleProtected (platform : Platform) (fallsBack : Bool) (pid : ℤ) (e : Entry) (a : Answers) :
    Handled :=
  let live := protectedLive platform fallsBack pid e a
  if live.1 then ⟨.keeps, live.2, none⟩
  else letGroup platform (e.pgid.getD pid) a live.2 none

/-- An entry of a controller, on Windows. -/
def handleOwnedWindows (pid : ℤ) (e : Entry) (a : Answers) : Handled :=
  match a.liveness with
  | some false => ⟨.lets, [.liveness a.liveness], none⟩
  | none => ⟨.keeps, [.liveness a.liveness], none⟩
  | some true =>
    if !e.creationTime then ⟨.keeps, [.liveness a.liveness], none⟩
    else
      ⟨.lets, [.liveness a.liveness],
        if isTarget pid && a.creationMatches then some (.process pid a.delivered) else none⟩

/-- The signal to a worker that was found twice. -/
def killWorker (pid : ℤ) (e : Entry) (a : Answers) : Option Signal :=
  let pgid := e.pgid.getD pid
  if e.isBashTail && pgid ≠ pid then
    if isTarget pid then some (.process pid a.delivered) else none
  else if isTarget pid && isTarget pgid then some (.group pgid a.delivered)
  else none

/-- An entry of a controller that is gone. -/
def handleOwned (pid : ℤ) (e : Entry) (a : Answers) : Handled :=
  let pgid := e.pgid.getD pid
  match e.workerIdentity with
  | none =>
    if maybeAlive a.liveness then ⟨.keeps, [.liveness a.liveness], none⟩
    else letGroup .posix pgid a [.liveness a.liveness] none
  | some recorded =>
    let compared := compareFineProcessIdentities pid recorded a.identity
    match compared.1, a.identity with
    | true, some current =>
      let comparedAgain := compareFineProcessIdentities pid current a.identityAgain
      let probes := [Probe.identity compared.2, .identity comparedAgain.2]
      if comparedAgain.1 then
        let signal := killWorker pid e a
        if signal.any Signal.delivered then letGroup .posix pgid a probes signal
        else if maybeAlive a.livenessAgain then
          ⟨.keeps, probes ++ [.liveness a.livenessAgain], signal⟩
        else letGroup .posix pgid a (probes ++ [.liveness a.livenessAgain]) signal
      else letGroup .posix pgid a probes none
    | _, _ => letGroup .posix pgid a [.identity compared.2] none

/-- **The round of `cleanup_ghosts` for an entry.** -/
def handleEntry (platform : Platform) (own : List ℤ) (controller : Option ℤ) (bashTail : Bool)
    (e : Entry) (a : Answers) : Handled :=
  match e.pid with
  | none => ⟨.lets, [], none⟩
  | some pid =>
    if own.contains pid then ⟨.lets, [], none⟩
    else if (bashTail && e.isBashTail) || e.detached || controller = none then
      handleProtected platform ((bashTail && e.isBashTail) || controller = none) pid e a
    else
      match platform with
      | .windows => handleOwnedWindows pid e a
      | .posix => handleOwned pid e a

/-! ### One file -/

/-- The controller identities that are recorded in a file. -/
def Pidfile.controllers (file : Pidfile) : List Identity :=
  file.entries.filterMap fun e => e.1.controllerIdentity

/-- `process_start_identity`, with this start token. -/
def startIdentity (pid : ℤ) (startToken : String) : Identity :=
  ⟨some pid, none, some startToken, false⟩

/-- The sweep goes on to the entries of a file of this controller: a probe finds its pid, and by no
identity in the file it is the controller. -/
def controllerGone (file : Pidfile) (pid : ℤ) (probe : Option String) : Bool :=
  (file.controllers.any fun recorded => (given recorded.startToken).isSome) &&
    (given probe).any fun startToken =>
      !file.controllers.any fun recorded =>
        (compareFineProcessIdentities pid recorded (some (startIdentity pid startToken))).1

/-- The sweep goes on to the entries of the file. -/
def Pidfile.proceeds (file : Pidfile) (controllerProbe : ℤ → Option String) : Bool :=
  match file.owner with
  | none => false
  | some none => file.lines.isSome
  | some (some pid) =>
    file.lines.isSome && (file.bashTail || controllerGone file pid (controllerProbe pid))

/-- The start of a list, up to the first that raises. -/
def upToRaise {α : Type} (raises : α → Bool) : List α → List α
  | [] => []
  | a :: rest => if raises a then [a] else a :: upToRaise raises rest

section Sweep

variable (platform : Platform) (own : List ℤ) (controllerProbe : ℤ → Option String)

/-- What an entry of the file comes to. -/
def handleIn (file : Pidfile) (e : Entry × Answers) : Handled :=
  handleEntry platform own (file.owner.getD none) file.bashTail e.1 e.2

/-- The sweep of a file ends with an exception at this entry. -/
def raisesIn (file : Pidfile) (e : Entry × Answers) : Bool :=
  (handleIn platform own file e).fate = .raises

/-- The entries of a file that a sweep has come to. -/
def reached (file : Pidfile) : List (Entry × Answers) :=
  if file.proceeds controllerProbe then upToRaise (raisesIn platform own file) file.entries else []

/-- The sweep of the file ends with an exception. -/
def fileRaises (file : Pidfile) : Bool :=
  (reached platform own controllerProbe file).any (raisesIn platform own file)

/-- **The file is unlinked.** -/
def unlinked (file : Pidfile) : Bool :=
  file.proceeds controllerProbe &&
    file.entries.all fun e => (handleIn platform own file e).fate = .lets

/-- The files that a sweep has come to. -/
def cleanupGhosts (files : List Pidfile) : List Pidfile :=
  upToRaise (fileRaises platform own controllerProbe) files

end Sweep

end GoalFlight.Acp
