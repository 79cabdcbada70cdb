import GoalFlight.Worktrees.Seats

/-!
# Worktrees: acquiring a seat

An allocator takes the allocation lock, counts the seats that are occupied, and tries the
candidates in order: the slots whose head is the base, the slots whose head is an ancestor of
it, the other slots, the trees of the label rings, and last a new slot of the ring.  A candidate
that is claimed is prepared without the allocation lock.  When it is refused then, the allocator
takes the lock again and goes on, with what it had found before.

A process does nothing more once it has lost a lock that it held; that is how its end is seen.
-/

namespace GoalFlight.Worktrees

/-! ### Sections -/

/-- What a condition can be put on. -/
inductive PoolLabel
  | free
  /-- A candidate is tried. -/
  | claim (stale : Bool)
  /-- The high-water mark is written. -/
  | advance (stale : Bool) (hwm : ℕ)
  | prepare (name : SeatName) (fresh : Bool) (preparation : Preparation)
  | record (name : SeatName) (fresh : Bool) (recording : Recording)
  | drop (name : SeatName)
  | withdraw (name : SeatName) (dispatchId : String) (live : Bool)

/-- A program of a process of the pool. -/
abbrev PoolProgram := Resumption.Program Pool PoolAnswer PoolLabel

/-- A section under the allocation lock. -/
def allocating (t : Allocation) (label : PoolLabel) (write : PoolAnswer → Pool → Pool)
    (rest : PoolAnswer → Pool → PoolProgram) : PoolProgram :=
  .step label (fun w s => if s.allocation = some t then write w s else s)
    fun w s => if s.allocation = some t then rest w s else .done

/-- The process holds the kernel lock of the seat. -/
def Pool.Holds (s : Pool) (id : ℕ) (name : SeatName) : Prop :=
  ∃ holder, (s.seat name).holder = some holder ∧ holder.id = id

instance (s : Pool) (id : ℕ) (name : SeatName) : Decidable (s.Holds id name) :=
  decidable_of_iff (∃ holder ∈ (s.seat name).holder, holder.id = id) Iff.rfl

/-- A section under the lock of a seat. -/
def holding (id : ℕ) (name : SeatName) (label : PoolLabel) (write : Pool → Pool)
    (rest : PoolAnswer → Pool → PoolProgram) : PoolProgram :=
  .step label (fun _ s => if s.Holds id name then write s else s)
    fun w s => if s.Holds id name then rest w s else .done

/-- `release_allocation_lock`, and the end of the allocation. -/
def releaseAllocation (t : Allocation) : PoolProgram :=
  allocating t .free (fun _ s => { s with allocation := none }) fun _ _ => .done

/-! ### Preparing a seat -/

/-- A checkout is there in the end that was not there before. -/
def Preparation.makes : Preparation → Bool
  | ready => true
  | refused made => made
  | unavailable => false
  | error made _ => made

/-- The preparation of a seat ends. -/
def Pool.prepare (s : Pool) (id : ℕ) (name : SeatName) (fresh : Bool) (preparation : Preparation) :
    Pool :=
  let s' := s.setSeat name ((s.seat name).prepared id fresh preparation)
  if (s.seat name).checkout = false ∧ preparation.makes then s'.noteCreated name else s'

/-- The record of a seat that is prepared is written. -/
def recordOccupant (id : ℕ) (name : SeatName) (fresh : Bool) (dispatchId : String) : PoolProgram :=
  holding id name .free (fun s => s) fun w _ =>
    holding id name (.record name fresh w.recording)
      (fun s => s.setSeat name ((s.seat name).recorded id dispatchId fresh w.recording))
      fun _ _ => .done

/-- `_prepare_claimed_seat`, and the handlers of `try_candidate`: `again` is what follows a seat
that was refused, or turned out to be unavailable. -/
def prepareClaimedSeat (id : ℕ) (name : SeatName) (fresh reset : Bool) (dispatchId : String)
    (again : Bool → PoolProgram) : PoolProgram :=
  holding id name .free (fun s => s) fun w s =>
    let preparation :=
      if reset = false ∧ (s.seat name).checkout = false then .error false false
      else w.preparation
    holding id name (.prepare name fresh preparation)
      (fun s => s.prepare id name fresh preparation)
      fun _ _ =>
        match preparation with
        | .ready => recordOccupant id name fresh dispatchId
        | .refused _ => again true
        | .unavailable => again false
        | .error .. => .done

/-! ### Claiming a seat -/

namespace Allocation

variable (t : Allocation)

/-- A candidate turns out to be occupied. -/
def note (name : SeatName) : Allocation :=
  { t with occupants := noteOccupant name t.occupants }

/-- The allocation lock is taken again, after the seat was refused. -/
def retaken (name : SeatName) (refused : Bool) : Allocation :=
  { t.note name with refused := t.refused || refused, stale := true }

end Allocation

/-- A seat is claimed, and the allocation lock let go. -/
def Pool.claim (s : Pool) (t : Allocation) (name : SeatName) (seat : Seat) : Pool :=
  { s.setSeat name { seat with holder := some ⟨s.next, false⟩ } with
    allocation := none
    waiting := t :: s.waiting
    next := s.next + 1 }

/-- `reacquire_allocation_lock`. -/
def reacquireAllocation (t : Allocation) (name : SeatName) (refused : Bool)
    (next : Allocation → PoolProgram) : PoolProgram :=
  .step .free
    (fun _ s =>
      if s.allocation = none ∧ t ∈ s.waiting then
        { s with allocation := some (t.retaken name refused) }
      else s)
    fun _ s =>
      if s.allocation = none ∧ t ∈ s.waiting then next (t.retaken name refused) else .done

/-- Neither the lock file nor the checkout is there. -/
def Seat.Fresh (seat : Seat) : Prop := seat.lockFile = false ∧ seat.checkout = false

instance (seat : Seat) : Decidable seat.Fresh := by
  unfold Seat.Fresh
  infer_instance

/-- `try_candidate`. -/
def claimCandidate (reset : Bool) (dispatchId : String) (name : SeatName) (requireAncestor : Bool)
    (t : Allocation) (next : Allocation → PoolProgram) : PoolProgram :=
  allocating t (.claim t.stale)
    (fun w s =>
      match tryCandidate w requireAncestor (s.seat name) with
      | (.occupied, seat) => { s.setSeat name seat with allocation := some (t.note name) }
      | (.skipped, seat) => s.setSeat name seat
      | (.failed, seat) => { s.setSeat name seat with allocation := none }
      | (.claimed, seat) => s.claim t name seat)
    fun w s =>
      match (tryCandidate w requireAncestor (s.seat name)).1 with
      | .occupied => next (t.note name)
      | .skipped => next t
      | .failed => .done
      | .claimed =>
        prepareClaimedSeat s.next name (s.seat name).Fresh reset dispatchId fun refused =>
          reacquireAllocation t name refused next

/-- The candidates are tried one after the other. -/
def claimCandidates (reset : Bool) (dispatchId : String) :
    List (SeatName × Bool) → Allocation → (Allocation → PoolProgram) → PoolProgram
  | [], t, next => next t
  | (name, requireAncestor) :: more, t, next =>
    claimCandidate reset dispatchId name requireAncestor t fun t' =>
      claimCandidates reset dispatchId more t' next

/-- The slots of the ring, in the order in which they are tried: `exact_slots`, the first eight of
`other_slots` if they are ancestors, `other_slots`. -/
def orderedSlots (exact : ℕ → Bool) (hwm : ℕ) : List (SeatName × Bool) :=
  let slots := (List.range hwm).map (· + 1)
  let others := slots.filter fun slot => !exact slot
  (slots.filter exact).map (fun slot => (.captive slot, false)) ++
    (others.take 8).map (fun slot => (.captive slot, true)) ++
    others.map fun slot => (.captive slot, false)

/-- The loop around `create_next_slot`; when it ends no seat is found. -/
def createSlots (ring : Ring) (reset : Bool) (dispatchId : String) : ℕ → Allocation → PoolProgram
  | 0, t => releaseAllocation t
  | fuel + 1, t =>
    if t.hwm < ring.seatLimit ∧ t.occupants.length + 1 ≤ ring.seatLimit then
      let t' := { t with hwm := t.hwm + 1 }
      allocating t (.advance t.stale t.hwm)
        (fun _ s => { s with hwm := t.hwm + 1, allocation := some t' })
        fun _ _ => claimCandidate reset dispatchId (.captive t'.hwm) false t'
          (createSlots ring reset dispatchId fuel)
    else releaseAllocation t

/-! ### The capacity pass -/

namespace Allocation

variable (t : Allocation)

/-- A candidate has been looked at. -/
def probed (name : SeatName) (rest : List SeatName) (occupied : Bool) : Allocation :=
  { t with
    unprobed := rest
    capacityOccupants :=
      if occupied then noteOccupant name t.capacityOccupants else t.capacityOccupants }

/-- The capacity pass is over: `hwm = min(_read_ring_hwm(…), seat_limit)`. -/
def counted (hwm : ℕ) : Allocation :=
  { t with occupants := t.capacityOccupants, hwm, admitted := true }

end Allocation

/-- An allocation begins. -/
def Pool.begin (s : Pool) (target : Option SeatName) (candidates : List SeatName) : Allocation :=
  ⟨s.next, target, candidates, [], [], 0, false, false, false⟩

/-- The candidates are counted. -/
def probeCandidates : List SeatName → Allocation → (Allocation → PoolProgram) → PoolProgram
  | [], t, next => next t
  | name :: rest, t, next =>
    allocating t .free
      (fun w s =>
        { s with allocation := some (t.probed name rest ((s.seat name).countsAsOccupied w)) })
      fun w s => probeCandidates rest (t.probed name rest ((s.seat name).countsAsOccupied w)) next

/-- The allocation lock is taken, and the seats are counted: too many of them refuse it. -/
def capacityPass (ring : Ring) (target : Option SeatName)
    (next : PoolAnswer → Allocation → PoolProgram) : PoolProgram :=
  let candidates := ring.candidates.filter fun name => target ≠ some name
  .step .free
    (fun _ s =>
      if s.allocation = none then
        { s with allocation := some (s.begin target candidates), next := s.next + 1 }
      else s)
    fun _ s =>
      if s.allocation = none then
        probeCandidates candidates (s.begin target candidates) fun t =>
          if ring.seatLimit ≤ t.capacityOccupants.length then releaseAllocation t
          else
            allocating t .free
              (fun _ s =>
                { s with allocation := some (t.counted (min s.hwm ring.seatLimit)) })
              fun w s => next w (t.counted (min s.hwm ring.seatLimit))
      else .done

/-- `acquire_worktree_seat`. -/
def acquireWorktreeSeat (ring : Ring) (dispatchId : String) (reset : Bool) : PoolProgram :=
  capacityPass ring none fun w t =>
    claimCandidates reset dispatchId
      (orderedSlots w.exact t.hwm ++ ring.legacy.map fun name => (name, false)) t
      (createSlots ring reset dispatchId ring.seatLimit)

/-- `acquire_worktree_seat` with an `occupy_path`. -/
def occupyWorktreeSeat (ring : Ring) (target : SeatName) (dispatchId : String)
    (expectedPrior : Option String) (allowedPrior : List String) (reset : Bool) : PoolProgram :=
  capacityPass ring (some target) fun _ t =>
    allocating t (.claim t.stale)
      (fun w s =>
        match tryOccupy w expectedPrior allowedPrior (s.seat target) with
        | (.claimed, seat) => s.claim t target seat
        | (_, seat) => { s.setSeat target seat with allocation := none })
      fun w s =>
        match (tryOccupy w expectedPrior allowedPrior (s.seat target)).1 with
        | .claimed => prepareClaimedSeat s.next target false reset dispatchId fun _ => .done
        | _ => .done

/-! ### Calls -/

/-- What the processes do, and what happens to them. -/
inductive PoolCall
  | acquire (dispatchId : String) (reset : Bool)
  | occupy (target : SeatName) (dispatchId : String) (expectedPrior : Option String)
      (allowedPrior : List String) (reset : Bool)
  /-- The last holder of the lock releases its lease, or ends. -/
  | drop (name : SeatName)
  /-- The holder of the allocation lock ends. -/
  | dropAllocation
  | withdraw (name : SeatName) (dispatchId : String) (live : Bool)

/-- Something that happens at once. -/
def poolEvent (label : PoolLabel) (write : Pool → Pool) : PoolProgram :=
  .step label (fun _ s => write s) fun _ _ => .done

/-- The program of a call. -/
def PoolCall.program (ring : Ring) : PoolCall → PoolProgram
  | .acquire dispatchId reset => acquireWorktreeSeat ring dispatchId reset
  | .occupy target dispatchId expectedPrior allowedPrior reset =>
    occupyWorktreeSeat ring target dispatchId expectedPrior allowedPrior reset
  | .drop name =>
    poolEvent (.drop name) fun s => s.setSeat name { s.seat name with holder := none }
  | .dropAllocation => poolEvent .free fun s => { s with allocation := none }
  | .withdraw name dispatchId live =>
    poolEvent (.withdraw name dispatchId live) fun s =>
      s.setSeat name ((s.seat name).withdrawn dispatchId live)

/-- The pool, and the programs of its processes. -/
abbrev PoolState := Resumption.State Pool PoolAnswer PoolLabel

/-- A step of the processes. -/
abbrev PoolAction := Resumption.Action PoolCall PoolAnswer

/-- The state after these steps. -/
def PoolState.run (ring : Ring) (s : PoolState) (actions : List PoolAction) : PoolState :=
  Machine.run (Resumption.step (PoolCall.program ring)) s actions

end GoalFlight.Worktrees
