import Mathlib.Data.Int.Notation
import GoalFlight.Library.Inodes
import GoalFlight.Library.Machine
import GoalFlight.Library.Threads

/-!
# Fleet: account locks

An account of the fleet has at most one holder: its lock is a document in a file of the account,
with a fencing token and a time at which it expires.  A process that acquires, renews or releases
the lock opens the file, takes the file's advisory lock, reads the document, writes the new one
to a temporary file and renames that over the file.

Any number of processes do so at once, each step in any order with those of the others.  The
advisory lock is one of an inode, and the renaming gives the name another inode.
-/

namespace GoalFlight.Fleet

/-! ### Documents -/

/-- A path, relative to the fleet's locks. -/
abbrev Path := List Char

/-- `account_lock_path`. -/
def accountLockPath (accountKey : String) : Path :=
  (accountKey.toList.flatMap fun c => if c = '/' then ['_', '_'] else [c]) ++ ".json".toList

/-- The temporary file of `_atomic_write_json`. -/
def temporaryPath (path : Path) : Path := path ++ ".tmp".toList

/-- The states of an account lock. -/
inductive LockState
  | active
  | stale
  | released
deriving DecidableEq

/-- The document of an account lock; the times are in seconds. -/
structure AccountLock where
  accountKey : String
  ownerDispatchId : String
  ownerControllerId : String
  fencingToken : ℕ
  remoteLeaseId : Option String
  state : LockState
  expiresAt : ℤ
  renewedAt : ℤ
  releasedAt : Option ℤ := none
  reason : Option String := none
deriving DecidableEq

/-- `iso`, to the second, of a clock in microseconds. -/
def iso (now : ℤ) : ℤ := now / 1000000

/-- `iso(now + timedelta(seconds=ttl_s))`. -/
def isoAfter (now ttlS : ℤ) : ℤ := iso (now + ttlS * 1000000)

/-- `account_lock_expired`. -/
def AccountLock.expired (lock : AccountLock) (now : ℤ) : Bool := lock.expiresAt * 1000000 < now

/-- The lock is held: it is active and has not expired. -/
def AccountLock.Held (lock : AccountLock) (now : ℤ) : Prop :=
  lock.state = .active ∧ lock.expired now = false

instance (lock : AccountLock) (now : ℤ) : Decidable (lock.Held now) :=
  inferInstanceAs (Decidable (_ ∧ _))

/-! ### Calls -/

/-- The calls, with their arguments. -/
inductive Call
  | acquire (accountKey ownerDispatchId : String) (ttlS : ℤ)
  | renew (accountKey ownerDispatchId : String) (fencingToken : ℕ) (ttlS : ℤ)
  | release (accountKey : String) (fencingToken : ℕ) (reason : String)

namespace Call

/-- The account of a call. -/
def accountKey : Call → String
  | acquire key .. | renew key .. | release key .. => key

/-- The file of a call. -/
def path (c : Call) : Path := accountLockPath c.accountKey

/-- What a call checks of the document that it reads; an `AccountLockError` has this message. -/
def check (c : Call) (now : ℤ) (existing : Option AccountLock) : Except String Unit :=
  match c, existing with
  | acquire .., none => .ok ()
  | acquire .., some lock =>
    if lock.state = .active && !lock.expired now then
      .error ("account lock held by " ++ lock.ownerDispatchId)
    else .ok ()
  | renew .., none => .error "no active account lock"
  | renew _ owner token _, some lock =>
    if lock.state ≠ .active then .error "no active account lock"
    else if lock.ownerDispatchId ≠ owner then .error "owner mismatch"
    else if lock.fencingToken ≠ token then .error "fencing token mismatch"
    else .ok ()
  | release .., none => .error "missing account lock"
  | release _ token _, some lock =>
    if lock.fencingToken ≠ token then .error "fencing token mismatch" else .ok ()

/-- The document that a call writes, with a new token for a new lock. -/
def document (c : Call) (controllerId : String) (newToken : ℕ) (now : ℤ)
    (existing : Option AccountLock) : Option AccountLock :=
  match c with
  | acquire key owner ttlS =>
    some {
      accountKey := key
      ownerDispatchId := owner
      ownerControllerId := controllerId
      fencingToken := newToken
      remoteLeaseId := none
      state := .active
      expiresAt := isoAfter now ttlS
      renewedAt := iso now }
  | renew _ _ _ ttlS =>
    existing.map fun lock => { lock with expiresAt := isoAfter now ttlS, renewedAt := iso now }
  | release _ _ reason =>
    existing.map fun lock =>
      { lock with state := .released, releasedAt := some (iso now), reason := some reason }

/-- The call makes a new token. -/
def isAcquire : Call → Bool
  | acquire .. => true
  | _ => false

end Call

/-! ### Processes -/

/-- Where a process is in its call, with the inode that it opened. -/
inductive Place
  | idle
  /-- The file is open. -/
  | opened (c : Call) (inode : ℕ)
  /-- `flock` has returned. -/
  | locked (c : Call) (inode : ℕ)
  /-- The document was read, and the call goes on. -/
  | checked (c : Call) (inode : ℕ) (existing : Option AccountLock)
  /-- The temporary file was written. -/
  | written (c : Call) (inode : ℕ) (lock : AccountLock)
  /-- The call has ended, but for `LOCK_UN` and `close`. -/
  | leaving (inode : ℕ)

/-- What all processes share, and what was granted so far. -/
structure World where
  /-- `utc_now()`, in microseconds. -/
  clock : ℤ
  /-- The files; an empty one has no document. -/
  files : Inodes Path (Option AccountLock)
  /-- The tokens from here on are new. -/
  nextToken : ℕ
  /-- The accounts of the calls so far. -/
  accountKeys : List String
  /-- The locks that calls have returned, each as it was returned last. -/
  granted : List AccountLock

/-- No call has been made. -/
def World.start : World := ⟨0, Inodes.empty none, 0, [], []⟩

/-- A call returned this lock. -/
def grant (granted : List AccountLock) (lock : AccountLock) : List AccountLock :=
  lock :: granted.filter fun g => g.fencingToken ≠ lock.fencingToken

/-- The shared state, and the place of each process. -/
abbrev State := Threads.State World Place

/-- What can happen. -/
inductive Action
  /-- Time goes by. -/
  | tick (elapsed : ℕ)
  /-- A process begins a call: it opens the file. -/
  | call (p : ℕ) (c : Call)
  /-- A process takes its next step. -/
  | turn (p : ℕ)
  /-- A process dies. -/
  | die (p : ℕ)

/-- `load_account_lock`: a file that is missing or empty has no document. -/
def World.load (w : World) (c : Call) : Option AccountLock := (w.files.read? c.path).join

/-- A process's next step; one that waits for an advisory lock stays where it is. -/
def turn (controllerId : ℕ → String) (p : ℕ) (w : World) : Place → World × Place
  | .idle => (w, .idle)
  | .opened c inode =>
    if w.files.holder inode = none then
      ({ w with files := w.files.lock inode p }, .locked c inode)
    else (w, .opened c inode)
  | .locked c inode =>
    match c.check w.clock (w.load c) with
    | .ok () => (w, .checked c inode (w.load c))
    | .error _ => (w, .leaving inode)
  | .checked c inode existing =>
    match c.document (controllerId p) w.nextToken w.clock existing with
    | none => (w, .leaving inode)
    | some lock =>
      ({ w with
          files := w.files.writeFile (temporaryPath c.path) (some lock)
          nextToken := if c.isAcquire then w.nextToken + 1 else w.nextToken },
        .written c inode lock)
  | .written c inode lock =>
    match w.files.rename (temporaryPath c.path) c.path with
    | none => (w, .leaving inode)
    | some files => ({ w with files, granted := grant w.granted lock }, .leaving inode)
  | .leaving inode => ({ w with files := w.files.unlock inode p }, .idle)

/-- The inode whose lock a process can hold. -/
def Place.inode? : Place → Option ℕ
  | .idle => none
  | .opened _ inode | .locked _ inode | .checked _ inode _ | .written _ inode _ |
    .leaving inode => some inode

/-- One step of the processes. -/
def step (controllerId : ℕ → String) (s : State) : Action → State
  | .tick elapsed => s.environment { s.shared with clock := s.shared.clock + elapsed }
  | .call p c =>
    match s.place p with
    | .idle =>
      let (inode, files) := s.shared.files.openFile c.path none
      s.turn p ({ s.shared with
          files
          accountKeys := c.accountKey :: s.shared.accountKeys }, .opened c inode)
    | _ => s
  | .turn p => s.turn p (turn controllerId p s.shared (s.place p))
  | .die p =>
    match (s.place p).inode? with
    | none => s
    | some inode => s.turn p ({ s.shared with files := s.shared.files.unlock inode p }, .idle)

/-- No process is in a call. -/
def State.start : State := ⟨World.start, fun _ => .idle⟩

end GoalFlight.Fleet
