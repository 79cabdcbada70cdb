import GoalFlight.Library.Resumption
import GoalFlight.Wake.PendingReport

/-!
# Wake: the ledger of waiters

A waiter holds the lock of a *generation*, or of one of a number of listener *slots*, and the lock
of a record whose name says who it is.  The kernel lets go of the locks of a process that dies,
unless a child has inherited them.

`live_waiters` probes each record and the process it names, and prunes the records of the dead;
`lease_holder_alive` probes the lock of one generation.  A probe takes the lock that it tests.

The texts that are hashed into names are taken to be the names.  Files are never removed and no
record name is drawn twice, so a name stands for one file.
-/

namespace GoalFlight.Wake

/-! ### Files and locks -/

/-- `WaiterRecord`: what the name of a record says. -/
structure WaiterRecord where
  kind : String
  label : String
  generation : Option String
  owner : Generation
  instanceId : ℕ
deriving DecidableEq

/-- A file of the ledger that is locked. -/
inductive LockName
  | record (r : WaiterRecord)
  /-- `_generation_lock_path`. -/
  | generation (kind label generationKey : String)
  /-- `_listener_slot_lock_path`. -/
  | slot (label generationKey : String) (slot : ℕ)
deriving DecidableEq

/-- What a lock was taken for. -/
inductive Purpose
  | registration
  | probe
deriving DecidableEq

/-- An open file that holds a lock; it is an orphan when its process has died, and a child that
inherited it lives on. -/
structure Descriptor where
  id : ℕ
  process : Generation
  purpose : Purpose
  orphan : Bool
deriving DecidableEq

/-- The process that has a pid. -/
structure Process where
  startToken : String
  zombie : Bool
deriving DecidableEq

/-- What a probe says of a lock.  Nobody reads which descriptor holds it. -/
inductive LockState
  | unknown
  | unheld
  | held (by_ : Descriptor)
deriving DecidableEq

/-- The answer of a call of `live_waiters`.  Of its course are kept: which records it wanted,
the numbers that were drawn before it and the generations that were gone then, and whether every
probe was determinate. -/
structure Report where
  wanted : WaiterRecord → Bool
  before : ℕ
  gone : List Generation
  determinate : Bool
  result : Option (List WaiterRecord)

/-- The files, the holder of each lock, the processes, and the calls that were answered. -/
structure WaiterLedger where
  files : List LockName
  lock : LockName → Option Descriptor
  processes : ℕ → Option Process
  /-- The generations that ever were; no start token is drawn twice for a pid. -/
  born : List Generation
  /-- The next number of a descriptor or a record. -/
  next : ℕ
  reports : List Report
  /-- The registrations that were refused, with each lock that was tried and its holder. -/
  refusals : List (List (LockName × Descriptor))
  /-- The answers of `lease_holder_alive`. -/
  leaseAnswers : List LockState

/-- What the world answers. -/
structure HostAnswer where
  /-- A file or the directory cannot be opened. -/
  fails : Bool
  /-- A probe of a process says something. -/
  known : Bool
  /-- A process that dies stays as a zombie. -/
  lingers : Bool
  /-- A child has inherited the lock. -/
  inherits : LockName → Bool

namespace WaiterLedger

variable (s : WaiterLedger)

/-- The generation lives. -/
def Alive (g : Generation) : Prop := s.processes g.pid = some ⟨g.startToken, false⟩

instance (g : Generation) : Decidable (s.Alive g) := by
  unfold Alive
  infer_instance

/-- The generations that are no more. -/
def gone : List Generation := s.born.filter fun g => ¬ s.Alive g

/-- A new descriptor. -/
def fresh (process : Generation) (purpose : Purpose) : Descriptor :=
  ⟨s.next, process, purpose, false⟩

/-- The file is there. -/
def create (name : LockName) : WaiterLedger := { s with files := name :: s.files }

/-- `_unlink_at`. -/
def unlink (name : LockName) : WaiterLedger :=
  { s with files := s.files.filter fun other => other ≠ name }

/-- The lock is taken by a new descriptor. -/
def lockWith (name : LockName) (d : Descriptor) : WaiterLedger :=
  { s with lock := Function.update s.lock name (some d), next := s.next + 1 }

/-- `LOCK_UN`. -/
def unlock (name : LockName) (d : Descriptor) : WaiterLedger :=
  if s.lock name = some d then { s with lock := Function.update s.lock name none } else s

/-- `process_start_identity`: a zombie still has one. -/
def identity (w : HostAnswer) (pid : ℕ) : Option String :=
  if w.known then (s.processes pid).map Process.startToken else none

/-- `pid_liveness`. -/
def liveness (w : HostAnswer) (pid : ℕ) : Option Bool :=
  if w.known then some (s.processes pid).isSome else none

/-- `pid_is_zombie`: true also of a pid that nobody has. -/
def zombie (w : HostAnswer) (pid : ℕ) : Option Bool :=
  if w.known then some ((s.processes pid).all Process.zombie) else none

end WaiterLedger

/-! ### Sections -/

/-- What a condition can be put on. -/
inductive WaiterLabel
  | free
  /-- A registration, or a probe of a lease, tries a lock. -/
  | attempt (name : LockName)
  /-- `live_waiters` has found the record locked, and asks for the state of a process whose
  identity it has read. -/
  | recheck (r : WaiterRecord) (identity : Option String)

/-- A program of a process of the ledger. -/
abbrev WaiterProgram := Resumption.Program WaiterLedger HostAnswer WaiterLabel

/-- One section of a process; a dead process does nothing more. -/
def act (process : Generation) (label : WaiterLabel)
    (write : HostAnswer → WaiterLedger → WaiterLedger)
    (rest : HostAnswer → WaiterLedger → WaiterProgram) : WaiterProgram :=
  .step label (fun w s => if s.Alive process then write w s else s)
    fun w s => if s.Alive process then rest w s else .done

/-- A section that only reads. -/
def look (process : Generation) (rest : HostAnswer → WaiterLedger → WaiterProgram) : WaiterProgram :=
  act process .free (fun _ s => s) rest

/-- A section that only writes. -/
def change (process : Generation) (write : WaiterLedger → WaiterLedger) (rest : WaiterProgram) :
    WaiterProgram :=
  act process .free (fun _ s => write s) fun _ _ => rest

/-- `flock(fd, LOCK_EX | LOCK_NB)`. -/
def tryLock (process : Generation) (purpose : Purpose) (label : WaiterLabel) (name : LockName)
    (granted refused : Descriptor → WaiterProgram) : WaiterProgram :=
  act process label
    (fun _ s =>
      match s.lock name with
      | none => s.lockWith name (s.fresh process purpose)
      | some _ => s)
    fun _ s =>
      match s.lock name with
      | none => granted (s.fresh process purpose)
      | some d => refused d

/-- `_acquire_contended_lock`: a lock that is not there is linked when it is held already; where
another is first the lock is there, and is tried. -/
def acquireContendedLock (process : Generation) (name : LockName)
    (granted refused : Descriptor → WaiterProgram) : WaiterProgram :=
  let attempt := tryLock process .registration (.attempt name) name granted refused
  look process fun _ s =>
    if name ∈ s.files then attempt
    else
      act process .free
        (fun _ s =>
          if name ∈ s.files then s
          else (s.create name).lockWith name (s.fresh process .registration))
        fun _ s => if name ∈ s.files then attempt else granted (s.fresh process .registration)

/-- `_probe_locked_state_at`. -/
def probeLockedState (process : Generation) (label : WaiterLabel) (name : LockName)
    (rest : LockState → WaiterProgram) : WaiterProgram :=
  look process fun w s =>
    if name ∈ s.files ∧ w.fails = false then
      tryLock process .probe label name
        (fun d => change process (fun s => s.unlock name d) (rest .unheld))
        fun d => rest (.held d)
    else rest .unknown

/-! ### Registering -/

/-- The lock of the generation is let go. -/
def releaseHeld (process : Generation) : Option (LockName × Descriptor) → WaiterProgram
  | none => .done
  | some (name, d) => change process (fun s => s.unlock name d) .done

/-- The record of a new waiter. -/
def WaiterLedger.newRecord (s : WaiterLedger) (process : Generation) (kind label : String)
    (generation : Option String) : WaiterRecord :=
  ⟨kind, label, generation, process, s.next⟩

/-- The record is published, and its lock held; later it is closed. -/
def publishRecord (process : Generation) (kind label : String) (generation : Option String)
    (held : Option (LockName × Descriptor)) : WaiterProgram :=
  act process .free
    (fun _ s =>
      let r := s.newRecord process kind label generation
      (s.create (.record r)).lockWith (.record r) (s.fresh process .registration))
    fun _ s =>
      let r := s.newRecord process kind label generation
      change process (fun s' => s'.unlock (.record r) (s.fresh process .registration))
        (change process (fun s' => s'.unlink (.record r)) (releaseHeld process held))

/-- A registration that is refused. -/
def refuse (process : Generation) (seen : List (LockName × Descriptor)) : WaiterProgram :=
  change process (fun s => { s with refusals := seen :: s.refusals }) .done

/-- The slots are tried from this one on. -/
def scanSlots (process : Generation) (label generationKey : String)
    (granted : LockName → Descriptor → WaiterProgram) :
    ℕ → ℕ → List (LockName × Descriptor) → WaiterProgram
  | 0, _, seen => refuse process seen
  | n + 1, slot, seen =>
    acquireContendedLock process (.slot label generationKey slot)
      (granted (.slot label generationKey slot))
      fun d => scanSlots process label generationKey granted n (slot + 1)
        (seen ++ [(.slot label generationKey slot, d)])

/-- `WaiterRegistration`, and its `close`. -/
def waiterRegistration (process : Generation) (kind label : String) (generation : Option String)
    (slots : Option ℕ) : WaiterProgram :=
  match generation, slots with
  | none, _ => publishRecord process kind label none none
  | some key, none =>
    acquireContendedLock process (.generation kind label key)
      (fun d => publishRecord process kind label generation
        (some (.generation kind label key, d)))
      fun d => refuse process [(.generation kind label key, d)]
  | some key, some slots =>
    if kind = "listener" then
      scanSlots process label key
        (fun name d => publishRecord process kind label generation (some (name, d))) slots 0 []
    else .done

/-- `LeaseHolderRegistration`, and its `close`. -/
def leaseHolderRegistration (process : Generation) (label leaseNonce : String) : WaiterProgram :=
  acquireContendedLock process (.generation "lease" label leaseNonce)
    (fun d => change process (fun s => s.unlock (.generation "lease" label leaseNonce) d) .done)
    fun d => refuse process [(.generation "lease" label leaseNonce, d)]

/-! ### Probing -/

/-- Whether the process of a record is its owner. -/
def ownerMatches (r : WaiterRecord) (identity : Option String) (liveness zombie : Option Bool) :
    Option Bool :=
  if liveness = some false ∨ zombie = some true then some false
  else
    match identity with
    | none => none
    | some token =>
      if token ≠ r.owner.startToken then some false
      else if zombie = some false then some true
      else none

/-- What `live_waiters` has found so far. -/
structure Tally where
  live : List WaiterRecord
  indeterminate : Bool
  determinate : Bool

/-- The label of the last probe of a record. -/
def recheckLabel (r : WaiterRecord) (identity : Option String) : LockState → WaiterLabel
  | .held _ => .recheck r identity
  | _ => .free

/-- The loop of `live_waiters`. -/
def examineAll (process : Generation) (pruneDead : Bool) (reply : Tally → WaiterProgram) :
    List WaiterRecord → Tally → WaiterProgram
  | [], t => reply t
  | r :: more, t =>
    probeLockedState process .free (.record r) fun lockState =>
      look process fun w s =>
        let identity := s.identity w r.owner.pid
        look process fun w s =>
          let liveness := s.liveness w r.owner.pid
          act process (recheckLabel r identity lockState) (fun _ s => s) fun w s =>
            let owner := ownerMatches r identity liveness (s.zombie w r.owner.pid)
            let t := { t with
              determinate := t.determinate && lockState ≠ .unknown && owner.isSome }
            match owner, lockState with
            | some true, .held _ =>
              examineAll process pruneDead reply more { t with live := t.live ++ [r] }
            | some false, _ | _, .unheld =>
              if pruneDead then
                change process (fun s => s.unlink (.record r))
                  (examineAll process pruneDead reply more t)
              else examineAll process pruneDead reply more t
            | _, _ => examineAll process pruneDead reply more { t with indeterminate := true }

/-- The records in the directory that are wanted. -/
def WaiterLedger.listing (s : WaiterLedger) (wanted : WaiterRecord → Bool) :
    List WaiterRecord :=
  s.files.filterMap fun name =>
    match name with
    | .record r => if wanted r then some r else none
    | _ => none

/-- The call is answered. -/
def answerWith (process : Generation) (r : Report) : WaiterProgram :=
  change process (fun s => { s with reports := r :: s.reports }) .done

/-- `live_waiters`. -/
def liveWaiters (process : Generation) (wanted : WaiterRecord → Bool) (pruneDead : Bool) :
    WaiterProgram :=
  look process fun w s =>
    if w.fails then answerWith process ⟨wanted, s.next, s.gone, false, none⟩
    else
      examineAll process pruneDead
        (fun t => answerWith process
          ⟨wanted, s.next, s.gone, t.determinate,
            if t.indeterminate then none else some t.live⟩)
        (s.listing wanted) ⟨[], false, true⟩

/-- `lease_holder_alive`. -/
def leaseHolderAlive (process : Generation) (label leaseNonce : String) : WaiterProgram :=
  probeLockedState process (.attempt (.generation "lease" label leaseNonce))
    (.generation "lease" label leaseNonce)
    fun answer => change process
      (fun s => { s with leaseAnswers := answer :: s.leaseAnswers }) .done

/-- The probes of `coverage_status`. -/
def coverageStatus (process : Generation) (label leaseNonce : String)
    (wanted : WaiterRecord → Bool) : WaiterProgram :=
  probeLockedState process .free (.generation "monitor" label leaseNonce)
    fun _ => liveWaiters process wanted true

/-! ### Processes -/

namespace WaiterLedger

variable (s : WaiterLedger)

/-- A process starts, with a start token of its own. -/
def spawn (g : Generation) : WaiterLedger :=
  if s.processes g.pid = none ∧ g ∉ s.born then
    { s with
      processes := Function.update s.processes g.pid (some ⟨g.startToken, false⟩)
      born := g :: s.born }
  else s

/-- A lock of a process that dies. -/
def lockAfter (w : HostAnswer) (g : Generation) (name : LockName) : Option Descriptor :=
  match s.lock name with
  | none => none
  | some d =>
    if d.process = g ∧ d.orphan = false then
      if w.inherits name then some { d with orphan := true } else none
    else some d

/-- A process dies: its locks are let go, but for those that a child has inherited. -/
def die (w : HostAnswer) (g : Generation) : WaiterLedger :=
  if s.Alive g then
    { s with
      processes := Function.update s.processes g.pid
        (if w.lingers then some ⟨g.startToken, true⟩ else none)
      lock := s.lockAfter w g }
  else s

/-- A zombie is reaped. -/
def reap (pid : ℕ) : WaiterLedger :=
  if (s.processes pid).any Process.zombie then
    { s with processes := Function.update s.processes pid none }
  else s

/-- The child that holds an inherited lock exits. -/
def orphanExits (name : LockName) : WaiterLedger :=
  if (s.lock name).any Descriptor.orphan then
    { s with lock := Function.update s.lock name none }
  else s

end WaiterLedger

/-- What the processes do, and what happens to them. -/
inductive WaiterCall
  | register (process : Generation) (kind label : String) (generation : Option String)
      (slots : Option ℕ)
  | holdLease (process : Generation) (label leaseNonce : String)
  | liveWaiters (process : Generation) (wanted : WaiterRecord → Bool) (pruneDead : Bool)
  | leaseHolderAlive (process : Generation) (label leaseNonce : String)
  | coverageStatus (process : Generation) (label leaseNonce : String)
      (wanted : WaiterRecord → Bool)
  | spawn (g : Generation)
  | die (g : Generation)
  | reap (pid : ℕ)
  | orphanExits (name : LockName)

/-- Something that happens at once. -/
def event (write : HostAnswer → WaiterLedger → WaiterLedger) : WaiterProgram :=
  .step .free write fun _ _ => .done

/-- The program of a call. -/
def WaiterCall.program : WaiterCall → WaiterProgram
  | .register process kind label generation slots =>
    waiterRegistration process kind label generation slots
  | .holdLease process label leaseNonce => leaseHolderRegistration process label leaseNonce
  | .liveWaiters process wanted pruneDead => Wake.liveWaiters process wanted pruneDead
  | .leaseHolderAlive process label leaseNonce => Wake.leaseHolderAlive process label leaseNonce
  | .coverageStatus process label leaseNonce wanted =>
    Wake.coverageStatus process label leaseNonce wanted
  | .spawn g => event fun _ s => s.spawn g
  | .die g => event fun w s => s.die w g
  | .reap pid => event fun _ s => s.reap pid
  | .orphanExits name => event fun _ s => s.orphanExits name

/-- The ledger before anything has happened. -/
def WaiterLedger.empty : WaiterLedger where
  files := []
  lock _ := none
  processes _ := none
  born := []
  next := 0
  reports := []
  refusals := []
  leaseAnswers := []

/-- The ledger, and the programs of its processes. -/
abbrev WaiterState := Resumption.State WaiterLedger HostAnswer WaiterLabel

/-- A step of the processes. -/
abbrev WaiterAction := Resumption.Action WaiterCall HostAnswer

/-- The state after these steps. -/
def WaiterState.run (s : WaiterState) (actions : List WaiterAction) : WaiterState :=
  Machine.run (Resumption.step WaiterCall.program) s actions

end GoalFlight.Wake
