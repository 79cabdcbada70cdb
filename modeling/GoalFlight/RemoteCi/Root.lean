import GoalFlight.RemoteCi.Holder

/-!
# Remote CI: the managed root

Every lease of a box has its run directory under one managed root.  A holder is admitted with a
token of the box and a slot of its repository.  Who has them is spread over the kernel's locks,
which go with their process, the lease file and the slot marker, which are written one after the
other.

What `start`, `attach`, `release` and `cancel` write of a live holder is an answer to its looks.  A
read of a lease or of a marker may fail at any time.
-/

namespace GoalFlight.RemoteCi

/-! ### Files and locks -/

/-- A slot of a repository, `s-01` on. -/
structure Slot where
  repo : String
  index : ℕ
deriving DecidableEq

/-- `lease.json`, as far as admission reads it. -/
structure LeaseFile where
  status : LeaseStatus
  /-- `token_index` and `slot`. -/
  token : Option ℕ
  slot : Option Slot
  /-- `workload_pid` is there. -/
  launched : Bool
deriving DecidableEq

/-- A slot marker.  A lease is named with its run directory. -/
inductive Marker
  | free
  | leased (lease : ℕ)
deriving DecidableEq

/-- **The managed root**, and who has which lock. -/
structure Root where
  /-- The run directories. -/
  runs : List ℕ
  /-- The lease identifiers that were issued. -/
  issued : List ℕ
  lease : ℕ → Option LeaseFile
  marker : Slot → Option Marker
  /-- The tickets, in the order of their numbers. -/
  tickets : List ℕ
  queueLock : Option ℕ
  commandLock : ℕ → Option ℕ
  /-- The holder's own locks. -/
  holderLock : ℕ → Bool
  ticketLock : ℕ → Bool
  /-- Who has the lock of a token, and that of a slot. -/
  token : ℕ → Option ℕ
  slotLock : Slot → Option ℕ

/-- An empty root. -/
def Root.empty : Root where
  runs := []
  issued := []
  lease _ := none
  marker _ := none
  tickets := []
  queueLock := none
  commandLock _ := none
  holderLock _ := false
  ticketLock _ := false
  token _ := none
  slotLock _ := none

namespace Root

variable (root : Root)

/-- `write_json` of a lease. -/
def write (lease : ℕ) (file : LeaseFile) : Root :=
  { root with lease := Function.update root.lease lease (some file) }

/-- `write_json` of a marker. -/
def mark (slot : Slot) (marker : Marker) : Root :=
  { root with marker := Function.update root.marker slot (some marker) }

/-- `queue.lock`. -/
def lockQueue (p : ℕ) : Root := { root with queueLock := some p }
def unlockQueue : Root := { root with queueLock := none }

/-- A token is taken, or closed. -/
def setToken (index : ℕ) (holder : Option ℕ) : Root :=
  { root with token := Function.update root.token index holder }

/-- The lock of a slot is taken. -/
def lockSlot (slot : Slot) (p : ℕ) : Root :=
  { root with slotLock := Function.update root.slotLock slot (some p) }

/-- `command.lock`. -/
def setCommandLock (lease : ℕ) (p : Option ℕ) : Root :=
  { root with commandLock := Function.update root.commandLock lease p }

/-- The kernel drops the locks of a process. -/
def drop (p : ℕ) : Root := { root with
  queueLock := if root.queueLock = some p then none else root.queueLock
  holderLock := Function.update root.holderLock p false
  ticketLock := Function.update root.ticketLock p false
  token := fun index => if root.token index = some p then none else root.token index
  slotLock := fun slot => if root.slotLock slot = some p then none else root.slotLock slot }

/-- The marker of a slot does not keep it: there is none, it is free, or the lease it names is
released. -/
def usable (slot : Slot) : Bool :=
  match root.marker slot with
  | none => true
  | some .free => true
  | some (.leased lease) =>
    match root.lease lease with
    | some file => file.status = .released
    | none => false

/-- `_free_slot_marker`: a successor's marker stays. -/
def freeSlotMarker (lease : ℕ) (file : LeaseFile) (readable : Bool) : Root :=
  match file.slot with
  | none => root
  | some slot =>
    if readable && root.marker slot = some (.leased lease) then root.mark slot .free else root

end Root

/-! ### Processes -/

/-- What follows `_mark_released`: the rest of `reclaim_dead_prestart`, of a holder or of `health`,
or the end of a release. -/
inductive After
  | reclaim (health : Bool) (todo : List ℕ)
  | settled
deriving DecidableEq

/-- Where a process is. -/
inductive ProcessAt
  | idle
  | gone
  /-- `enqueue`. -/
  | enqueue
  | create
  | fork
  /-- The admission loop. -/
  | look
  | queue
  | reclaim (health : Bool) (todo : List ℕ)
  | tickets
  | scan (count : ℕ) (found todo : List ℕ)
  | take (count : ℕ) (found : List ℕ) (index : ℕ)
  | slot (count index : ℕ)
  | mark
  | grant
  | unlink
  | closeQueue
  /-- After admission. -/
  | wait
  | running
  | work
  | leave
  | releaseUnadmitted
  /-- `_release_holder`, or `finish_dead_workload` of another's lease. -/
  | drainLock (lease : ℕ)
  | drain (lease : ℕ)
  | clear (lease : ℕ)
  | settleLock (lease : ℕ) (ok : Bool)
  | settle (lease : ℕ) (ok : Bool)
  | closeSettled (lease : ℕ)
  | closeToken
  | exit
  /-- `_mark_released`. -/
  | markReleased (lease : ℕ) (file : LeaseFile) (after : After)
  | freeMarker (lease : ℕ) (file : LeaseFile) (after : After)
  /-- `cancel` and `clear` before `command.lock`. -/
  | finish (lease : ℕ)
  /-- `gc`. -/
  | collect (lease : ℕ)
  | rmtree (lease : ℕ)
  /-- `health` before `queue.lock`. -/
  | health
deriving DecidableEq

/-- **A process**: where it is, and what a holder has in memory. -/
structure Process where
  place : ProcessAt
  repo : String
  state : LeaseFile
  token : Option ℕ
  slot : Option Slot

/-- A process that was not called yet. -/
def Process.idle : Process := ⟨.idle, "", ⟨.queued, none, none, false⟩, none, none⟩

/-- The process goes on. -/
def Process.goto (process : Process) (place : ProcessAt) : Process := { process with place := place }

/-- What the world answers to a step. -/
structure RootAnswer where
  /-- The file that the step reads can be read. -/
  readable : Bool
  /-- The step is not refused: the load is low, no lock is just probed, nobody is in the directory,
  the tree is proven dead, the directory can be removed. -/
  ok : Bool
  /-- The command is there, or the loop is over. -/
  go : Bool
  /-- The lease is released, the window is over, or the workload has ended. -/
  stop : Bool
  /-- `token_pool_size` under the live caps. -/
  count : ℕ
  /-- A workload was found. -/
  launched : Bool

section Turns

variable (pool : ℕ) (a : RootAnswer) (p : ℕ) (process : Process) (root : Root)

/-- The lease of a run directory, where it can be read. -/
def Root.read (lease : ℕ) : Option LeaseFile := if a.readable then root.lease lease else none

/-- The release of a lease ends: a holder goes on to its exit, a request is answered. -/
def endRelease (lease : ℕ) : Root × Process :=
  if lease = p then (root, process.goto .closeToken)
  else (root.setCommandLock lease none, process.goto .gone)

/-- One run directory in `reclaim_dead_prestart`. -/
def reclaimTurn (health : Bool) (lease : ℕ) (todo : List ℕ) : Root × Process :=
  match root.read a lease with
  | none => (root, process.goto (.reclaim health todo))
  | some file =>
    if file.status = .admitted ∧ file.launched = false ∧ root.holderLock lease = false ∧ a.ok then
      (root, process.goto (.markReleased lease file (.reclaim health todo)))
    else (root, process.goto (.reclaim health todo))

/-- One run directory in `reserved_token_indexes`: an unreadable lease holds every token. -/
def scanTurn (count : ℕ) (found : List ℕ) (lease : ℕ) (todo : List ℕ) : Root × Process :=
  if lease ∉ root.runs then (root, process.goto (.scan count found todo))
  else
    match root.read a lease with
    | none => (root, process.goto .closeQueue)
    | some file =>
      if file.status = .released then (root, process.goto (.scan count found todo))
      else
        match file.token with
        | none => (root, process.goto (.scan count found todo))
        | some index => (root, process.goto (.scan count (index :: found) todo))

/-- One token index. -/
def takeTurn (count : ℕ) (found : List ℕ) (index : ℕ) : Root × Process :=
  if index < count then
    if index ∉ found ∧ root.token index = none ∧ a.ok then
      (root.setToken index (some p), { process with token := some index, place := .slot count 0 })
    else (root, process.goto (.take count found (index + 1)))
  else (root, process.goto .closeQueue)

/-- One slot in `lease_slot`.  Without a slot the token is closed. -/
def slotTurn (count index : ℕ) : Root × Process :=
  if index < count then
    let slot : Slot := ⟨process.repo, index⟩
    if root.slotLock slot = none ∧ a.readable ∧ root.usable slot ∧ a.ok then
      (root.lockSlot slot p, { process with slot := some slot, place := .mark })
    else (root, process.goto (.slot count (index + 1)))
  else
    match process.token with
    | none => (root, process.goto .closeQueue)
    | some token => (root.setToken token none, { process with token := none, place := .closeQueue })

/-- The lease starts to drain.  `finish_dead_workload` leaves a released one. -/
def drainTurn (lease : ℕ) : Root × Process :=
  match root.read a lease with
  | none => endRelease p process root.unlockQueue lease
  | some file =>
    if lease ≠ p ∧ file.status = .released then endRelease p process root.unlockQueue lease
    else
      let launched := file.launched || (lease = p && process.state.launched)
      ((root.write lease { file with status := .draining, launched := launched }).unlockQueue,
        process.goto (.clear lease))

/-- `clear_tree` adds what it finds to the lease. -/
def clearTurn (lease : ℕ) : Root × Process :=
  let root :=
    match root.read a lease with
    | none => root
    | some file => root.write lease { file with launched := file.launched || a.launched }
  (root, process.goto (if a.go then .settleLock lease a.ok else .clear lease))

/-- The lease is kept, or released. -/
def settleTurn (lease : ℕ) (ok : Bool) : Root × Process :=
  match root.read a lease with
  | none => endRelease p process root.unlockQueue lease
  | some file =>
    if file.status = .released then (root, process.goto (.closeSettled lease))
    else if ok then (root, process.goto (.markReleased lease file .settled))
    else (root.write lease { file with status := .draining }, process.goto (.closeSettled lease))

/-- **The next step of a process.** -/
def processTurn : Root × Process :=
  match process.place with
  | .idle => (root, process)
  | .gone => (root, process)
  | .enqueue =>
    if root.queueLock = none then (root.lockQueue p, process.goto .create) else (root, process)
  | .create =>
    ({ (root.write p process.state) with
        runs := root.runs ++ [p], issued := p :: root.issued
        tickets := root.tickets ++ [p]
        holderLock := Function.update root.holderLock p true
        ticketLock := Function.update root.ticketLock p true }, process.goto .fork)
  | .fork => (root.unlockQueue, process.goto .look)
  | .look => (root, process.goto (if a.stop then .leave else .queue))
  | .queue =>
    if root.queueLock = none then (root.lockQueue p, process.goto (.reclaim false root.runs))
    else (root, process)
  | .reclaim health (lease :: todo) => reclaimTurn a process root health lease todo
  | .reclaim true [] => (root.unlockQueue, process.goto .gone)
  | .reclaim false [] => (root, process.goto .tickets)
  | .tickets =>
    -- a dead holder's ticket is removed, and the first that waits may go on
    let waiting := root.tickets.filter fun q => q = p || root.ticketLock q
    ({ root with tickets := waiting },
      process.goto (if waiting.head? = some p && a.ok then .scan (min a.count pool) [] root.runs
        else .closeQueue))
  | .scan count found (lease :: todo) => scanTurn a process root count found lease todo
  | .scan count found [] => (root, process.goto (.take count found 0))
  | .take count found index => takeTurn a p process root count found index
  | .slot count index => slotTurn a p process root count index
  | .mark =>
    match process.slot with
    | none => (root, process.goto .closeQueue)
    | some slot => (root.mark slot (.leased p), process.goto .grant)
  | .grant =>
    let state : LeaseFile := ⟨.admitted, process.token, process.slot, false⟩
    (root.write p state, { process with state := state, place := .unlink })
  | .unlink => ({ root with tickets := root.tickets.erase p }, process.goto .closeQueue)
  | .closeQueue =>
    (root.unlockQueue, process.goto (if process.token.isSome then .wait else .look))
  | .wait =>
    ({ root with ticketLock := Function.update root.ticketLock p false },
      process.goto (if a.stop then .leave else if a.go then .running else .wait))
  | .running =>
    let state := { process.state with status := .running }
    (root.write p state, { process with state := state, place := .work })
  | .work =>
    let state := { process.state with launched := process.state.launched || a.launched }
    (root.write p state, { process with state := state, place := if a.stop then .leave else .work })
  | .leave =>
    ({ root with tickets := root.tickets.erase p },
      process.goto (if process.token = none ∧ process.state.token = none then .releaseUnadmitted
        else .drainLock p))
  | .releaseUnadmitted =>
    (root.write p { process.state with status := .released }, process.goto .exit)
  | .drainLock lease =>
    if root.queueLock = none then (root.lockQueue p, process.goto (.drain lease))
    else (root, process)
  | .drain lease => drainTurn a p process root lease
  | .clear lease => clearTurn a process root lease
  | .settleLock lease ok =>
    if root.queueLock = none then (root.lockQueue p, process.goto (.settle lease ok))
    else (root, process)
  | .settle lease ok => settleTurn a p process root lease ok
  | .closeSettled lease => endRelease p process root.unlockQueue lease
  | .closeToken =>
    match process.token with
    | none => (root, process.goto .exit)
    | some token => (root.setToken token none, { process with token := none, place := .exit })
  | .exit => (root.drop p, { process with token := none, slot := none, place := .gone })
  | .markReleased lease file after =>
    (root.write lease { file with status := .released },
      process.goto (.freeMarker lease file after))
  | .freeMarker lease file after =>
    (root.freeSlotMarker lease file a.readable, process.goto
      (match after with
      | .reclaim health todo => .reclaim health todo
      | .settled => .closeSettled lease))
  | .finish lease =>
    -- the lease is there, and its holder is not
    if root.commandLock lease = none ∧ (root.read a lease).isSome ∧
        root.holderLock lease = false ∧ a.ok then
      (root.setCommandLock lease (some p), process.goto (.drainLock lease))
    else (root, process.goto .gone)
  | .collect lease =>
    match root.read a lease with
    | none => (root, process.goto .gone)
    | some file =>
      if file.status = .released ∧ root.holderLock lease = false ∧ a.ok then
        (root, process.goto (.rmtree lease))
      else (root, process.goto .gone)
  | .rmtree lease =>
    ({ root with
        lease := Function.update root.lease lease none
        runs := if a.ok then root.runs.erase lease else root.runs }, process.goto .gone)
  | .health =>
    if root.queueLock = none then (root.lockQueue p, process.goto (.reclaim true root.runs))
    else (root, process)

end Turns

/-! ### Steps -/

/-- A request that may change what admission reads. -/
inductive RootRequest
  | enqueue (repo : String)
  /-- `cancel` or `clear` of a lease without a holder. -/
  | finish (lease : ℕ)
  | collect (lease : ℕ)
  | health
deriving DecidableEq

/-- A process is started with a request. -/
def RootRequest.process : RootRequest → Process
  | .enqueue repo => { Process.idle with repo := repo, place := .enqueue }
  | .finish lease => Process.idle.goto (.finish lease)
  | .collect lease => Process.idle.goto (.collect lease)
  | .health => Process.idle.goto .health

/-- The root, and the processes. -/
abbrev RootState := Threads.State Root Process

/-- What can happen. -/
inductive RootAction
  | call (p : ℕ) (request : RootRequest)
  | turn (p : ℕ) (a : RootAnswer)
  /-- A holder is killed. -/
  | kill (p : ℕ)

/-- One step. -/
def rootStep (pool : ℕ) (s : RootState) : RootAction → RootState
  | .call p request =>
    if (s.place p).place = .idle ∧ request ≠ .finish p then s.turn p (s.shared, request.process)
    else s
  | .turn p a => s.turn p (processTurn pool a p (s.place p) s.shared)
  | .kill p =>
    if s.shared.holderLock p then
      s.turn p (s.shared.drop p, { s.place p with token := none, slot := none, place := .gone })
    else s

/-- An empty root. -/
def RootState.start : RootState := ⟨Root.empty, fun _ => .idle⟩

end GoalFlight.RemoteCi
