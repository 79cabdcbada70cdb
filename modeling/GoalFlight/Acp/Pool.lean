import Mathlib.Data.List.AList
import Mathlib.Data.Finset.Card
import GoalFlight.Library.Machine
import GoalFlight.Library.Threads

/-!
# ACP: the process pool

`AcpProcessPool` keeps the worker processes of an orchestrator by agent and session.  Its calls run
on one event loop: a call runs until it awaits, and the others run in between.  Only the admission
of a session reserves its key; workers are killed, spawned and greeted while other calls run.  The
admission lock is not held across an await, so that taking it never waits.
-/

namespace GoalFlight.Acp

/-! ### The pool -/

/-- The agent and the session of a worker. -/
abbrev PoolKey := String × String

/-- How a worker is launched.  The directory is the resolved one, where it can be resolved. -/
structure Posture where
  contextMode : Bool
  osSandbox : String
  directory : Option String
  passFds : List ℕ
deriving DecidableEq

/-- `GoalflightAcpConnection`, or an `AcpTerminationHold`: one process group. -/
structure Worker where
  key : PoolKey
  posture : Posture
  reusable : Bool
  /-- `returncode` is set. -/
  exited : Bool
  /-- A call has begun to kill it. -/
  killed : Bool
  /-- Its whole group was confirmed gone. -/
  gone : Bool
  /-- The call that spawned it and rejects it. -/
  rejectedBy : Option ℕ

/-- `max_processes` and `max_per_agent`. -/
structure PoolLimits where
  max : ℕ
  maxPerAgent : ℕ

/-- **The pool**, and the workers it has spawned. -/
structure Pool where
  connections : AList fun _ : PoolKey => ℕ
  reservations : Finset PoolKey
  /-- Which call has made a reservation. -/
  reserver : PoolKey → Option ℕ
  worker : ℕ → Worker
  spawned : ℕ

namespace Pool

/-- No worker was spawned. -/
def start : Pool where
  connections := ∅
  reservations := ∅
  reserver := fun _ => none
  worker := fun _ => ⟨("", ""), ⟨false, "", none, []⟩, false, true, false, true, none⟩
  spawned := 0

variable (pool : Pool)

/-- `_connections.get`. -/
def entry (key : PoolKey) : Option ℕ := pool.connections.lookup key

/-- `_connections.items()`, the oldest first. -/
def items : List (PoolKey × ℕ) := (pool.connections.entries.map fun item => (item.1, item.2)).reverse

/-- `set(self._connections) | self._reservations`. -/
def occupied : Finset PoolKey := pool.connections.keys.toFinset ∪ pool.reservations

/-- `_count_agent`. -/
def countAgent (agent : String) : ℕ := (pool.occupied.filter fun key => key.1 = agent).card

/-- `self._connections[key] = conn`. -/
def put (key : PoolKey) (c : ℕ) : Pool :=
  { pool with connections := pool.connections.insert key c }

/-- `self._connections.pop(key, None)`. -/
def pop (key : PoolKey) : Pool := { pool with connections := pool.connections.erase key }

/-- `pop`, where the entry is still this connection. -/
def popIf (key : PoolKey) (c : ℕ) : Pool := if pool.entry key = some c then pool.pop key else pool

/-- A key is reserved. -/
def reserve (p : ℕ) (key : PoolKey) : Pool :=
  { pool with
    reservations := insert key pool.reservations
    reserver := Function.update pool.reserver key (some p) }

/-- `self._reservations.discard(key)`. -/
def release (key : PoolKey) : Pool := { pool with reservations := pool.reservations.erase key }

/-- A worker changes. -/
def update (c : ℕ) (change : Worker → Worker) : Pool :=
  { pool with worker := Function.update pool.worker c (change (pool.worker c)) }

/-- `conn.kill()` begins. -/
def beginKill (c : ℕ) : Pool := pool.update c fun w => { w with killed := true }

/-- Its group is confirmed gone. -/
def markGone (c : ℕ) : Pool := pool.update c fun w => { w with gone := true }

/-- `new_conn.reusable = False`. -/
def markUnusable (c : ℕ) : Pool := pool.update c fun w => { w with reusable := false }

/-- The rejection of a worker is over. -/
def settle (c : ℕ) : Pool := pool.update c fun w => { w with rejectedBy := none }

/-- A new process group. -/
def spawn (key : PoolKey) (posture : Posture) (reusable : Bool) (rejectedBy : Option ℕ) : Pool :=
  { pool with
    worker := Function.update pool.worker pool.spawned
      ⟨key, posture, reusable, false, false, false, rejectedBy⟩
    spawned := pool.spawned + 1 }

/-- `conn.alive and conn.reusable`, and the posture is the requested one. -/
def canReuse (c : ℕ) (posture : Posture) : Bool :=
  let w := pool.worker c
  !w.exited && w.reusable && w.posture = posture && posture.directory.isSome

end Pool

/-! ### Calls -/

/-- The calls that kill the workers of several keys. -/
inductive Sweep
  | cleanupIdle
  | healthCheck
  | shutdown
deriving DecidableEq

/-- What a call does once a worker was killed. -/
inductive AfterKill
  /-- `get_or_create` spawns another one for the key. -/
  | rebuild (key : PoolKey) (posture : Posture)
  /-- `get_or_create` gives up after the handshake failed. -/
  | handshake (key : PoolKey)
  | close (key : PoolKey)
  | sweep (kind : Sweep) (key : PoolKey) (left : List (PoolKey × ℕ))
deriving DecidableEq

/-- The key that the call has reserved. -/
def AfterKill.reserved? : AfterKill → Option PoolKey
  | .rebuild key _ => some key
  | .handshake key => some key
  | _ => none

/-- `_shielded_pool_connection_cleanup`: a cancellation does not end the kill. -/
def AfterKill.shielded : AfterKill → Bool
  | .handshake _ => true
  | _ => false

/-- Where a call awaits. -/
inductive PoolPlace
  | idle
  /-- In `kill`, before or after the group was confirmed gone. -/
  | killing (c : ℕ) (closing : Bool) (next : AfterKill)
  /-- In `create_subprocess_exec`. -/
  | spawning (key : PoolKey) (posture : Posture)
  /-- In `_raise_after_failed_spawn_cleanup`. -/
  | rejecting (key : PoolKey) (c : ℕ) (force : Bool)
  /-- In `initialize` or `new_session`. -/
  | handshaking (key : PoolKey) (c : ℕ)
  /-- In a `ping` of `health_check`. -/
  | pinging (left dead : List (PoolKey × ℕ))
  | sweeping (kind : Sweep) (left : List (PoolKey × ℕ))
  | returned (c : ℕ)
  | ended
deriving DecidableEq

/-- How a spawn ends. -/
inductive SpawnAnswer
  /-- No process is left of it. -/
  | failed
  /-- The process is rejected.  Without a group of its own it can not be confirmed gone. -/
  | rejected (force : Bool)
  | connected

/-- What is answered at an await. -/
structure PoolAnswer where
  cancelled : Bool
  /-- The group is confirmed gone. -/
  confirmed : Bool
  /-- The handshake or the ping succeeds. -/
  ok : Bool
  spawn : SpawnAnswer

section Turns

variable (a : PoolAnswer) (p : ℕ) (pool : Pool)

/-- A kill is cancelled, and the call ends. -/
def abortKill (next : AfterKill) : Pool :=
  match next.reserved? with
  | some key => pool.release key
  | none => pool

/-- After a kill. -/
def afterKill (c : ℕ) (confirmed : Bool) : AfterKill → Pool × PoolPlace
  | .rebuild key posture =>
    if confirmed then (pool.popIf key c, .spawning key posture) else (pool.release key, .ended)
  | .handshake key =>
    if confirmed then ((pool.popIf key c).release key, .ended)
    else ((pool.markUnusable c).release key, .ended)
  | .close key => (if confirmed then pool.pop key else pool, .ended)
  | .sweep kind key left => (if confirmed then pool.pop key else pool, .sweeping kind left)

/-- A kill that awaits. -/
def killTurn (c : ℕ) (closing : Bool) (next : AfterKill) : Pool × PoolPlace :=
  if a.cancelled && !next.shielded then (abortKill pool next, .ended)
  else if closing then afterKill pool c true next
  else if a.confirmed then (pool.markGone c, .killing c true next)
  else afterKill pool c false next

/-- A spawn that awaits. -/
def spawnTurn (key : PoolKey) (posture : Posture) : Pool × PoolPlace :=
  if a.cancelled then (pool.release key, .ended)
  else
    match a.spawn with
    | .failed => (pool.release key, .ended)
    | .rejected force =>
      (pool.spawn key posture false (some p), .rejecting key pool.spawned force)
    | .connected =>
      ((pool.spawn key posture true none).put key pool.spawned, .handshaking key pool.spawned)

/-- The rejection of a spawned process: where its group is not confirmed gone, it is kept as an
`AcpTerminationHold`. -/
def rejectTurn (key : PoolKey) (c : ℕ) (force : Bool) : Pool × PoolPlace :=
  if force || !a.confirmed then (((pool.settle c).put key c).release key, .ended)
  else (((pool.markGone c).settle c).release key, .ended)

/-- The next key of a sweep. -/
def sweepTurn (kind : Sweep) : List (PoolKey × ℕ) → Pool × PoolPlace
  | [] => (pool, .ended)
  | (key, c) :: left =>
    match kind, pool.entry key with
    | .shutdown, _ => (pool.beginKill c, .killing c false (.sweep .shutdown key left))
    | kind, some found => (pool.beginKill found, .killing found false (.sweep kind key left))
    | .healthCheck, none => (pool, .sweeping .healthCheck left)
    -- `self._connections[key]` is a `KeyError`
    | _, none => (pool, .ended)

/-- **What a call does** from one await to the next. -/
def poolTurn : PoolPlace → Pool × PoolPlace
  | .idle => (pool, .idle)
  | .killing c closing next => killTurn a pool c closing next
  | .spawning key posture => spawnTurn a p pool key posture
  | .rejecting key c force => rejectTurn a pool key c force
  | .handshaking key c =>
    if a.ok && !a.cancelled then (pool.release key, .returned c)
    else (pool.beginKill c, .killing c false (.handshake key))
  | .pinging [] dead => (pool, .sweeping .healthCheck dead.reverse)
  | .pinging ((key, c) :: left) dead =>
    if (pool.worker c).exited then (pool, .pinging left ((key, c) :: dead))
    else if a.cancelled then (pool, .ended)
    else (pool, .pinging left (if a.ok then dead else (key, c) :: dead))
  | .sweeping kind left => sweepTurn pool kind left
  | .returned c => (pool, .returned c)
  | .ended => (pool, .ended)

/-- `get_or_create`, up to its first await. -/
def admission (limits : PoolLimits) (key : PoolKey) (posture : Posture) : Pool × PoolPlace :=
  if key ∈ pool.reservations then (pool, .ended)
  else
    match pool.entry key with
    | some c =>
      if pool.canReuse c posture then (pool, .returned c)
      else ((pool.reserve p key).beginKill c, .killing c false (.rebuild key posture))
    | none =>
      if limits.max ≤ pool.occupied.card then (pool, .ended)
      else if limits.maxPerAgent ≤ pool.countAgent key.1 then (pool, .ended)
      else (pool.reserve p key, .spawning key posture)

end Turns

/-! ### Steps -/

/-- The pool, and where each call is. -/
abbrev PoolState := Threads.State Pool PoolPlace

/-- What can happen. -/
inductive PoolAction
  | getOrCreate (p : ℕ) (key : PoolKey) (posture : Posture)
  | close (p : ℕ) (key : PoolKey)
  /-- `remove`, whose probe finds the group gone or not. -/
  | remove (key : PoolKey) (confirmed : Bool)
  /-- `cleanup_idle`, with the keys that are stale. -/
  | cleanupIdle (p : ℕ) (stale : PoolKey → Bool)
  | healthCheck (p : ℕ)
  | shutdown (p : ℕ)
  /-- A worker process exits. -/
  | exit (c : ℕ)
  /-- A call goes on from its await. -/
  | turn (p : ℕ) (a : PoolAnswer)

/-- `close`, up to its first await. -/
def beginClose (pool : Pool) (key : PoolKey) : Pool × PoolPlace :=
  match pool.entry key with
  | some c => (pool.beginKill c, .killing c false (.close key))
  | none => (pool, .ended)

/-- `remove`. -/
def removeEntry (pool : Pool) (key : PoolKey) (confirmed : Bool) : Pool :=
  match pool.entry key with
  | some c => if confirmed then (pool.markGone c).pop key else pool
  | none => pool

/-- A new call begins. -/
def beginCall (s : PoolState) (p : ℕ) (next : Pool × PoolPlace) : PoolState :=
  match s.place p with
  | .idle => s.turn p next
  | _ => s

/-- One step of the calls. -/
def poolStep (limits : PoolLimits) (s : PoolState) : PoolAction → PoolState
  | .getOrCreate p key posture => beginCall s p (admission p s.shared limits key posture)
  | .close p key => beginCall s p (beginClose s.shared key)
  | .remove key confirmed => s.environment (removeEntry s.shared key confirmed)
  | .cleanupIdle p stale =>
    beginCall s p (s.shared, .sweeping .cleanupIdle (s.shared.items.filter fun item => stale item.1))
  | .healthCheck p => beginCall s p (s.shared, .pinging s.shared.items [])
  | .shutdown p => beginCall s p (s.shared, .sweeping .shutdown s.shared.items)
  | .exit c => s.environment (s.shared.update c fun w => { w with exited := true })
  | .turn p a => s.turn p (poolTurn a p s.shared (s.place p))

/-- No call was made. -/
def PoolState.start : PoolState := ⟨Pool.start, fun _ => .idle⟩

end GoalFlight.Acp
