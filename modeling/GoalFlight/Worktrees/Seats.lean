import Mathlib.Data.List.Dedup
import GoalFlight.Library.Resumption

/-!
# Worktrees: the seats of a repository

The captive seats `s-1`, `s-2`, … are a ring that grows up to a limit, its high-water mark is on
disk; beside them are the trees of older label rings.  Whoever has a seat holds its kernel lock, and
the lock file has the record of the dispatch that had it last.

An allocator holds the allocation lock while it counts the seats that are occupied and claims one,
and not while it prepares the checkout.  What it has found is in `Allocation`.  Lock files are not
removed, so that a path stands for one file.
-/

namespace GoalFlight.Worktrees

/-! ### Seats -/

/-- A path of the pool. -/
inductive SeatName
  /-- `s-N`. -/
  | captive (slot : ℕ)
  /-- A tree of a label ring. -/
  | legacy (label : String) (slot : ℕ)
deriving DecidableEq

/-- The limit of the pool, and the label and the slot of each tree of the label rings. -/
structure Ring where
  seatLimit : ℕ
  labels : List (String × ℕ)

/-- The trees of the label rings. -/
def Ring.legacy (ring : Ring) : List SeatName :=
  ring.labels.map fun label => .legacy label.1 label.2

/-- The holder of a seat's kernel lock; its seat is being bound when the checkout is made and
its record is not written. -/
structure Holder where
  id : ℕ
  binding : Bool

/-- A seat: its lock file and whether that is registered, the record in it, the checkout. -/
structure Seat where
  lockFile : Bool
  registered : Bool
  /-- `_known_lock_dispatch_id`. -/
  dispatchId : Option String
  checkout : Bool
  holder : Option Holder

/-- A path that was never used. -/
def Seat.unused : Seat := ⟨false, false, none, false, none⟩

/-- What a record that could not be written leaves: `_clear_occupant` clears it, or fails as
well. -/
inductive Residue
  | cleared
  | old
  | new
deriving DecidableEq

/-- What the world answers. -/
structure PoolAnswer where
  /-- `_path_presence` of the lock. -/
  lockKnown : Bool
  /-- `_path_presence` of the checkout. -/
  pathKnown : Bool
  /-- The same, once the lock is taken. -/
  pathStillKnown : Bool
  /-- `_registered_lock_identity` does not raise. -/
  registryReadable : Bool
  /-- `_open_registered_lock`. -/
  opens : Bool
  /-- `_adopt_exclusive_lock`. -/
  adopts : Bool
  /-- `_validate_holder` does not raise. -/
  settled : Bool
  /-- `_seat_head_is_ancestor`. -/
  ancestor : Bool
  /-- The head of the slot is the base. -/
  exact : ℕ → Bool
  /-- How the preparation of a checkout goes: see `Preparation`. -/
  ready : Bool
  refuses : Bool
  unavailable : Bool
  /-- A new checkout has been made. -/
  made : Bool
  /-- What was made is removed again. -/
  removed : Bool
  /-- The record is written. -/
  written : Bool
  residue : Residue

namespace Seat

variable (seat : Seat)

/-- Whether the capacity pass counts the seat. -/
def countsAsOccupied (w : PoolAnswer) : Bool :=
  if w.lockKnown = false ∨ w.pathKnown = false then true
  else if seat.lockFile = false then seat.checkout
  else if w.registryReadable = false ∨ w.opens = false then true
  else if seat.holder.isSome then true
  else
    match seat.dispatchId with
    | none => if seat.registered then seat.checkout else true
    | some _ => if seat.registered then false else !w.settled

/-- The lock is opened; a new lock file is registered. -/
def opened : Seat :=
  if seat.lockFile then seat else { seat with lockFile := true, registered := true }

/-- The lock is adopted. -/
def adopted : Seat := { seat with lockFile := true, registered := true }

end Seat

/-- What becomes of a candidate. -/
inductive Claim
  /-- It is noted as an occupant. -/
  | occupied
  | skipped
  /-- The allocation fails. -/
  | failed
  | claimed

/-- `try_candidate`, up to the claim, with what it leaves of the lock file. -/
def tryCandidate (w : PoolAnswer) (requireAncestor : Bool) (seat : Seat) : Claim × Seat :=
  if w.lockKnown = false ∨ w.pathKnown = false then (.occupied, seat)
  else if w.opens = false then (.failed, seat)
  else if seat.holder.isSome then (.occupied, seat)
  else if requireAncestor ∧ w.ancestor = false then (.skipped, seat.opened)
  else if w.adopts = false then (.occupied, seat.opened)
  else if seat.checkout = false ∧ seat.lockFile ∧ ¬ (seat.registered ∧ w.registryReadable) ∧
      (seat.dispatchId = none ∨ w.settled = false) then (.occupied, seat.adopted)
  else if w.pathStillKnown = false then (.occupied, seat.adopted)
  else if seat.dispatchId = none ∧ seat.checkout then (.skipped, seat.adopted)
  else (.claimed, seat.adopted)

/-- The claim of the seat that a resume occupies. -/
def tryOccupy (w : PoolAnswer) (expectedPrior : Option String) (allowedPrior : List String)
    (seat : Seat) : Claim × Seat :=
  if w.pathKnown = false ∨ seat.checkout = false then (.failed, seat)
  else if w.opens = false then (.failed, seat)
  else if seat.holder.isSome then (.failed, seat)
  else if w.adopts = false then (.failed, seat.opened)
  else
    match expectedPrior, seat.dispatchId with
    | none, _ => (.claimed, seat.adopted)
    | some _, none => (.failed, seat.adopted)
    | some expected, some prior =>
      if prior = expected ∨ prior ∈ allowedPrior then (.claimed, seat.adopted)
      else (.failed, seat.adopted)

/-- How the preparation of a claimed seat ends. -/
inductive Preparation
  | ready
  /-- `WorktreeSeatResetRefused`. -/
  | refused (made : Bool)
  /-- `WorktreeSeatUnavailable`. -/
  | unavailable
  /-- Another exception; the checkout that was made is removed, or cannot be. -/
  | error (made removed : Bool)
deriving DecidableEq

/-- The preparation that the world answers. -/
def PoolAnswer.preparation (w : PoolAnswer) : Preparation :=
  if w.ready then .ready
  else if w.refuses then .refused w.made
  else if w.unavailable then .unavailable
  else .error w.made w.removed

/-- How the record of the new holder is written. -/
inductive Recording
  | written
  | lost (residue : Residue) (removed : Bool)

/-- The recording that the world answers. -/
def PoolAnswer.recording (w : PoolAnswer) : Recording :=
  if w.written then .written else .lost w.residue w.removed

namespace Seat

variable (seat : Seat)

/-- The seat after its preparation.  `fresh` says that neither the lock file nor the checkout was
there before: then what was made is removed when another exception than a refusal ends it. -/
def prepared (id : ℕ) (fresh : Bool) : Preparation → Seat
  | .ready => { seat with checkout := true, holder := some ⟨id, true⟩ }
  | .refused made => { seat with checkout := seat.checkout || made, holder := none }
  | .unavailable => { seat with holder := none }
  | .error made removed =>
    { seat with
      checkout := (seat.checkout || made) && !(fresh && removed)
      holder := none }

/-- The seat after the record of its holder, a lease or an exception. -/
def recorded (id : ℕ) (dispatchId : String) (fresh : Bool) : Recording → Seat
  | .written => { seat with dispatchId := some dispatchId, holder := some ⟨id, false⟩ }
  | .lost residue removed =>
    { seat with
      dispatchId :=
        match residue with
        | .cleared => none
        | .old => seat.dispatchId
        | .new => some dispatchId
      checkout := seat.checkout && !(fresh && removed)
      holder := none }

/-- `release_worktree_for_dispatch` gets as far as the truncation: the lock is registered and
free, its record names the dispatch or none, and the recorded process is gone. -/
def Withdraws (dispatchId : String) (live : Bool) : Prop :=
  seat.checkout ∧ seat.lockFile ∧ seat.registered ∧ seat.holder = none ∧
    (seat.dispatchId = none ∨ seat.dispatchId = some dispatchId) ∧ live = false

instance (dispatchId : String) (live : Bool) : Decidable (seat.Withdraws dispatchId live) := by
  unfold Withdraws
  infer_instance

/-- `release_worktree_for_dispatch`. -/
def withdrawn (dispatchId : String) (live : Bool) : Seat :=
  if seat.Withdraws dispatchId live then { seat with dispatchId := none } else seat

end Seat

/-! ### The pool -/

/-- The holder of the allocation lock, with what it has found. -/
structure Allocation where
  id : ℕ
  /-- `occupy_path`. -/
  target : Option SeatName
  /-- What the capacity pass has still to look at. -/
  unprobed : List SeatName
  capacityOccupants : List SeatName
  occupants : List SeatName
  hwm : ℕ
  /-- The capacity pass is over. -/
  admitted : Bool
  refused : Bool
  /-- The lock was let go since the capacity pass, and taken again. -/
  stale : Bool
deriving DecidableEq

/-- A candidate is noted once. -/
def noteOccupant (name : SeatName) (occupants : List SeatName) : List SeatName :=
  if name ∈ occupants then occupants else occupants ++ [name]

/-- The seats, the persisted high-water mark, the allocation lock.  `waiting` has the allocators
that have let the lock go, and `created` the slots whose checkout was ever made. -/
structure Pool where
  seat : SeatName → Seat
  hwm : ℕ
  allocation : Option Allocation
  waiting : List Allocation
  created : List ℕ
  next : ℕ

namespace Pool

variable (s : Pool)

/-- A seat is changed. -/
def setSeat (name : SeatName) (seat : Seat) : Pool :=
  { s with seat := Function.update s.seat name seat }

/-- The slot of a checkout that is made. -/
def noteCreated (name : SeatName) : Pool :=
  match name with
  | .captive slot => { s with created := slot :: s.created }
  | .legacy .. => s

/-- An empty ring beside the label rings: each of their trees has the record of a dispatch. -/
def initial (ring : Ring) : Pool where
  seat name :=
    if name ∈ ring.legacy then ⟨true, false, some "legacy", true, none⟩ else .unused
  hwm := 0
  allocation := none
  waiting := []
  created := []
  next := 0

end Pool

/-- `global_candidates` and `legacy_candidates` of the capacity pass. -/
def Ring.candidates (ring : Ring) : List SeatName :=
  (List.range ring.seatLimit).map (fun slot => .captive (slot + 1)) ++ ring.legacy

end GoalFlight.Worktrees
