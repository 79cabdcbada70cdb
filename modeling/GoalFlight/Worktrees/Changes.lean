import GoalFlight.Worktrees.Allocation

/-!
# Worktrees: what a section can do

Whatever state it finds, a section of an allocator's program changes the pool in one of a few
ways (`Change`), and `program_obeys` has it for every call: what an invariant of the pool needs is
that each of these changes keeps it.

What an allocator has found is part of the pool while it holds the allocation lock, so that a
change can say of which allocation it is.  Once the capacity pass is over the allocation is
`Admitted`, and it tries only the seats of `Tries`.
-/

namespace GoalFlight.Worktrees

variable {reset : Bool} {name : SeatName} {next : Allocation → PoolProgram}

/-! ### Candidates -/

/-- The lock file of a seat is opened or adopted, or left as it is. -/
def Seat.Looked (seat seat' : Seat) : Prop :=
  seat' = seat ∨ seat' = seat.opened ∨ seat' = seat.adopted

namespace Seat

variable {seat seat' : Seat}

@[simp] theorem opened_checkout : seat.opened.checkout = seat.checkout := by
  unfold opened; split <;> rfl

@[simp] theorem opened_dispatchId : seat.opened.dispatchId = seat.dispatchId := by
  unfold opened; split <;> rfl

@[simp] theorem opened_holder : seat.opened.holder = seat.holder := by
  unfold opened; split <;> rfl

@[simp] theorem opened_lockFile : seat.opened.lockFile = true := by
  unfold opened
  split
  · assumption
  · rfl

@[simp] theorem adopted_checkout : seat.adopted.checkout = seat.checkout := rfl

@[simp] theorem adopted_dispatchId : seat.adopted.dispatchId = seat.dispatchId := rfl

@[simp] theorem adopted_holder : seat.adopted.holder = seat.holder := rfl

@[simp] theorem adopted_lockFile : seat.adopted.lockFile = true := rfl

theorem Looked.checkout (h : seat.Looked seat') : seat'.checkout = seat.checkout := by
  rcases h with rfl | rfl | rfl <;> simp

theorem Looked.dispatchId (h : seat.Looked seat') : seat'.dispatchId = seat.dispatchId := by
  rcases h with rfl | rfl | rfl <;> simp

theorem Looked.holder (h : seat.Looked seat') : seat'.holder = seat.holder := by
  rcases h with rfl | rfl | rfl <;> simp

theorem Looked.lockFile (h : seat.Looked seat') (hfile : seat.lockFile = true) :
    seat'.lockFile = true := by
  rcases h with rfl | rfl | rfl <;> simp [hfile]

end Seat

theorem tryCandidate_looked (w : PoolAnswer) (requireAncestor : Bool) (seat : Seat) :
    seat.Looked (tryCandidate w requireAncestor seat).2 := by
  unfold tryCandidate
  repeat' split
  all_goals simp [Seat.Looked]

/-- A candidate is claimed when nobody holds it, and an existing checkout has a record. -/
theorem tryCandidate_claimed {w : PoolAnswer} {requireAncestor : Bool} {seat : Seat}
    (h : (tryCandidate w requireAncestor seat).1 = .claimed) :
    seat.holder = none ∧ (seat.checkout = true → seat.dispatchId ≠ none) ∧
      (tryCandidate w requireAncestor seat).2 = seat.adopted := by
  revert h
  unfold tryCandidate
  repeat' split
  all_goals simp_all
  rename_i hrecord
  exact fun hcheckout hnone => absurd (hrecord hnone) (by simp [hcheckout])

theorem tryOccupy_looked (w : PoolAnswer) (expectedPrior : Option String)
    (allowedPrior : List String) (seat : Seat) :
    seat.Looked (tryOccupy w expectedPrior allowedPrior seat).2 := by
  unfold tryOccupy
  repeat' split
  all_goals simp [Seat.Looked]

theorem tryOccupy_claimed {w : PoolAnswer} {expectedPrior : Option String}
    {allowedPrior : List String} {seat : Seat}
    (h : (tryOccupy w expectedPrior allowedPrior seat).1 = .claimed) :
    seat.holder = none ∧ seat.checkout = true ∧
      (tryOccupy w expectedPrior allowedPrior seat).2 = seat.adopted := by
  revert h
  unfold tryOccupy
  repeat' split
  all_goals simp_all

/-! ### Changes -/

/-- The candidates of an allocation's capacity pass. -/
def Ring.others (ring : Ring) (target : Option SeatName) : List SeatName :=
  ring.candidates.filter fun name => target ≠ some name

namespace Allocation

variable (ring : Ring) (t : Allocation)

/-- The capacity pass is over, and has left room. -/
structure Admitted : Prop where
  admitted : t.admitted = true
  unprobed : t.unprobed = []
  room : t.capacityOccupants.length < ring.seatLimit
  hwm_le : t.hwm ≤ ring.seatLimit

/-- The seats that an allocation tries. -/
def Tries (name : SeatName) : Prop :=
  match t.target with
  | some target => name = target
  | none => name ∈ ring.legacy ∨ ∃ slot, name = .captive slot ∧ 1 ≤ slot ∧ slot ≤ t.hwm

end Allocation

/-- A claimed seat had no holder; an allocation claims an existing checkout only with a record, a
resume only an existing checkout. -/
structure Claimable (t : Allocation) (seat seat' : Seat) : Prop where
  free : seat.holder = none
  recorded : t.target = none → seat.checkout = true → seat.dispatchId ≠ none
  present : t.target ≠ none → seat.checkout = true
  adopted : seat' = seat.adopted

/-- **What a section can do** to the pool. -/
inductive Change (ring : Ring) : PoolLabel → Pool → Pool → Prop
  | same (label : PoolLabel) (s : Pool) : Change ring label s s
  | begun {s : Pool} (target : Option SeatName) (hfree : s.allocation = none) :
      Change ring .free s
        { s with allocation := some (s.begin target (ring.others target)), next := s.next + 1 }
  | probed {s : Pool} {t : Allocation} {name : SeatName} {rest : List SeatName} (w : PoolAnswer)
      (ht : s.allocation = some t) (hbusy : t.admitted = false) (hlist : t.unprobed = name :: rest) :
      Change ring .free s
        { s with allocation := some (t.probed name rest ((s.seat name).countsAsOccupied w)) }
  | admitted {s : Pool} {t : Allocation} (ht : s.allocation = some t) (hbusy : t.admitted = false)
      (hlist : t.unprobed = []) (hroom : t.capacityOccupants.length < ring.seatLimit) :
      Change ring .free s { s with allocation := some (t.counted (min s.hwm ring.seatLimit)) }
  | released (s : Pool) : Change ring .free s { s with allocation := none }
  | looked {s : Pool} {t : Allocation} {name : SeatName} {seat : Seat}
      {allocation : Option Allocation} (ht : s.allocation = some t) (hadmitted : t.Admitted ring)
      (hseat : (s.seat name).Looked seat)
      (hafter : allocation = some t ∨ allocation = some (t.note name) ∨ allocation = none) :
      Change ring (.claim t.stale) s { s.setSeat name seat with allocation := allocation }
  | claimed {s : Pool} {t : Allocation} {name : SeatName} {seat : Seat}
      (ht : s.allocation = some t) (hadmitted : t.Admitted ring) (htries : t.Tries ring name)
      (hseat : Claimable t (s.seat name) seat) :
      Change ring (.claim t.stale) s (s.claim t name seat)
  | retaken {s : Pool} {t : Allocation} (name : SeatName) (refused : Bool)
      (hfree : s.allocation = none) (ht : t ∈ s.waiting) :
      Change ring .free s { s with allocation := some (t.retaken name refused) }
  | advanced {s : Pool} {t : Allocation} (ht : s.allocation = some t) (hadmitted : t.Admitted ring)
      (hroom : t.hwm < ring.seatLimit) (htarget : t.target = none) :
      Change ring (.advance t.stale t.hwm) s
        { s with hwm := t.hwm + 1, allocation := some { t with hwm := t.hwm + 1 } }
  | prepared {s : Pool} {id : ℕ} {name : SeatName} (fresh : Bool) (preparation : Preparation)
      (hholds : s.Holds id name) :
      Change ring (.prepare name fresh preparation) s (s.prepare id name fresh preparation)
  | recorded {s : Pool} {id : ℕ} {name : SeatName} (dispatchId : String) (fresh : Bool)
      (recording : Recording) (hholds : s.Holds id name) :
      Change ring (.record name fresh recording) s
        (s.setSeat name ((s.seat name).recorded id dispatchId fresh recording))
  | dropped (s : Pool) (name : SeatName) :
      Change ring (.drop name) s (s.setSeat name { s.seat name with holder := none })
  | withdrawn (s : Pool) (name : SeatName) (dispatchId : String) (live : Bool) :
      Change ring (.withdraw name dispatchId live) s
        (s.setSeat name ((s.seat name).withdrawn dispatchId live))

@[simp] theorem Pool.noteCreated_seat (s : Pool) (name : SeatName) :
    (s.noteCreated name).seat = s.seat := by
  cases name <;> rfl

@[simp] theorem Pool.noteCreated_hwm (s : Pool) (name : SeatName) :
    (s.noteCreated name).hwm = s.hwm := by
  cases name <;> rfl

@[simp] theorem Pool.noteCreated_allocation (s : Pool) (name : SeatName) :
    (s.noteCreated name).allocation = s.allocation := by
  cases name <;> rfl

@[simp] theorem Pool.noteCreated_waiting (s : Pool) (name : SeatName) :
    (s.noteCreated name).waiting = s.waiting := by
  cases name <;> rfl

theorem Pool.prepare_seat (s : Pool) (id : ℕ) (name : SeatName) (fresh : Bool)
    (preparation : Preparation) :
    (s.prepare id name fresh preparation).seat =
      (s.setSeat name ((s.seat name).prepared id fresh preparation)).seat := by
  unfold Pool.prepare
  simp only
  split <;> simp

/-! ### Programs -/

variable {ring : Ring}

/-- A program that makes these changes only. -/
abbrev Obeys (ring : Ring) (P : PoolProgram) : Prop := Resumption.Obeys (Change ring) P

variable {t : Allocation}

theorem obeys_allocating {label : PoolLabel} {write : PoolAnswer → Pool → Pool}
    {rest : PoolAnswer → Pool → PoolProgram}
    (h : ∀ w s, s.allocation = some t → Change ring label s (write w s) ∧ Obeys ring (rest w s)) :
    Obeys ring (allocating t label write rest) := by
  intro w s
  by_cases ht : s.allocation = some t
  · simpa [ht] using h w s ht
  · simpa [ht] using ⟨Change.same label s, trivial⟩

theorem obeys_holding {id : ℕ} {label : PoolLabel} {write : Pool → Pool}
    {rest : PoolAnswer → Pool → PoolProgram}
    (h : ∀ w s, s.Holds id name → Change ring label s (write s) ∧ Obeys ring (rest w s)) :
    Obeys ring (holding id name label write rest) := by
  intro w s
  by_cases hholds : s.Holds id name
  · simpa [hholds] using h w s hholds
  · simpa [hholds] using ⟨Change.same label s, trivial⟩

theorem releaseAllocation_obeys (t : Allocation) : Obeys ring (releaseAllocation t) :=
  obeys_allocating fun _ s _ => ⟨.released s, trivial⟩

theorem recordOccupant_obeys (id : ℕ) (name : SeatName) (fresh : Bool) (dispatchId : String) :
    Obeys ring (recordOccupant id name fresh dispatchId) :=
  obeys_holding fun w s _ => ⟨.same .free s,
    obeys_holding fun _ _ hholds => ⟨.recorded dispatchId fresh w.recording hholds, trivial⟩⟩

variable {dispatchId : String}

theorem prepareClaimedSeat_obeys {id : ℕ} {fresh : Bool}
    {again : Bool → PoolProgram} (hagain : ∀ refused, Obeys ring (again refused)) :
    Obeys ring (prepareClaimedSeat id name fresh reset dispatchId again) := by
  refine obeys_holding fun w s _ => ⟨.same .free s, obeys_holding fun _ _ hholds => ⟨?_, ?_⟩⟩
  · exact .prepared fresh _ hholds
  · -- what follows a preparation is one of these, whatever it was
    split
    · exact recordOccupant_obeys id name fresh dispatchId
    · exact hagain true
    · exact hagain false
    · trivial

/-! ### The allocation -/

theorem Allocation.Admitted.note (h : t.Admitted ring) (name : SeatName) :
    (t.note name).Admitted ring := ⟨h.admitted, h.unprobed, h.room, h.hwm_le⟩

theorem Allocation.Admitted.retaken (h : t.Admitted ring) (name : SeatName)
    (refused : Bool) : (t.retaken name refused).Admitted ring :=
  ⟨h.admitted, h.unprobed, h.room, h.hwm_le⟩

section

variable {t : Allocation} (hadmitted : t.Admitted ring) (htarget : t.target = none)
include hadmitted htarget

theorem claimCandidate_obeys {requireAncestor : Bool}
    (htries : t.Tries ring name)
    (hnext : ∀ t', t'.Admitted ring → t'.target = none → t.hwm = t'.hwm → Obeys ring (next t')) :
    Obeys ring (claimCandidate reset dispatchId name requireAncestor t next) := by
  refine obeys_allocating fun w s ht => ?_
  have hlooked := tryCandidate_looked w requireAncestor (s.seat name)
  have hclaimed := @tryCandidate_claimed w requireAncestor (s.seat name)
  generalize tryCandidate w requireAncestor (s.seat name) = result at hlooked hclaimed ⊢
  obtain ⟨claim, seat⟩ := result
  cases claim with
  | occupied =>
    exact ⟨.looked ht hadmitted hlooked (.inr (.inl rfl)), hnext _ (hadmitted.note name) htarget rfl⟩
  | skipped =>
    have hafter : s.setSeat name seat = { s.setSeat name seat with allocation := some t } := by
      rw [← ht]; rfl
    refine ⟨?_, hnext t hadmitted htarget rfl⟩
    show Change ring (.claim t.stale) s (s.setSeat name seat)
    rw [hafter]
    exact .looked ht hadmitted hlooked (.inl rfl)
  | failed => exact ⟨.looked ht hadmitted hlooked (.inr (.inr rfl)), trivial⟩
  | claimed =>
    obtain ⟨hfree, hrecord, hadopted⟩ := hclaimed rfl
    refine ⟨.claimed ht hadmitted htries ⟨hfree, fun _ => hrecord, fun h => absurd htarget h,
      hadopted⟩, prepareClaimedSeat_obeys fun refused => ?_⟩
    intro w' s'
    by_cases hwaits : s'.allocation = none ∧ t ∈ s'.waiting
    · simp only [hwaits, and_self, if_true]
      exact ⟨.retaken name refused hwaits.1 hwaits.2,
        hnext _ (hadmitted.retaken name refused) htarget rfl⟩
    · simp only [hwaits, if_false]
      exact ⟨.same .free s', trivial⟩

theorem claimCandidates_obeys {candidates : List (SeatName × Bool)}
    (htries : ∀ candidate ∈ candidates, t.Tries ring candidate.1)
    (hnext : ∀ t', t'.Admitted ring → t'.target = none → Obeys ring (next t')) :
    Obeys ring (claimCandidates reset dispatchId candidates t next) := by
  induction candidates generalizing t with
  | nil => exact hnext t hadmitted htarget
  | cons candidate more ih =>
    refine claimCandidate_obeys hadmitted htarget (htries candidate (by simp)) ?_
    intro t' hadmitted' htarget' hhwm
    refine ih hadmitted' htarget' fun candidate' hmem => ?_
    have htried := htries candidate' (by simp [hmem])
    unfold Allocation.Tries at htried ⊢
    rw [htarget, hhwm] at htried
    rw [htarget']
    exact htried

theorem createSlots_obeys {fuel : ℕ} :
    Obeys ring (createSlots ring reset dispatchId fuel t) := by
  induction fuel generalizing t with
  | zero => exact releaseAllocation_obeys t
  | succ fuel ih =>
    unfold createSlots
    split
    · rename_i hroom
      have hadmitted' : { t with hwm := t.hwm + 1 : Allocation }.Admitted ring :=
        ⟨hadmitted.admitted, hadmitted.unprobed, hadmitted.room, hroom.1⟩
      refine obeys_allocating fun w s ht => ⟨.advanced ht hadmitted hroom.1 htarget, ?_⟩
      refine claimCandidate_obeys hadmitted' htarget ?_ fun t' hadmitted'' htarget'' _ =>
        ih hadmitted'' htarget''
      unfold Allocation.Tries
      simp only [htarget]
      exact .inr ⟨t.hwm + 1, rfl, by omega, Nat.le_refl _⟩
    · exact releaseAllocation_obeys t

end

theorem tries_of_mem_orderedSlots {exact : ℕ → Bool} (htarget : t.target = none)
    {candidate : SeatName × Bool}
    (h : candidate ∈ orderedSlots exact t.hwm ++ ring.legacy.map fun name => (name, false)) :
    t.Tries ring candidate.1 := by
  unfold Allocation.Tries
  simp only [htarget]
  have hslot : ∀ slot ∈ (List.range t.hwm).map (· + 1), 1 ≤ slot ∧ slot ≤ t.hwm := by
    intro slot hslot
    obtain ⟨index, hindex, rfl⟩ := List.mem_map.mp hslot
    have := List.mem_range.mp hindex
    omega
  unfold orderedSlots at h
  simp only [List.mem_append, List.mem_map] at h
  rcases h with ((⟨slot, hmem, rfl⟩ | ⟨slot, hmem, rfl⟩) | ⟨slot, hmem, rfl⟩) | ⟨name, hmem, rfl⟩
  · exact .inr ⟨slot, rfl, hslot slot (List.mem_of_mem_filter hmem)⟩
  · exact .inr ⟨slot, rfl, hslot slot (List.mem_of_mem_filter (List.mem_of_mem_take hmem))⟩
  · exact .inr ⟨slot, rfl, hslot slot (List.mem_of_mem_filter hmem)⟩
  · exact .inl hmem

/-! ### The capacity pass -/

theorem probeCandidates_obeys {candidates : List SeatName}
    (hlist : t.unprobed = candidates) (hbusy : t.admitted = false)
    (hnext : ∀ t', t'.unprobed = [] → t'.admitted = false → t'.target = t.target →
      Obeys ring (next t')) :
    Obeys ring (probeCandidates candidates t next) := by
  induction candidates generalizing t with
  | nil => exact hnext t hlist hbusy rfl
  | cons name rest ih =>
    exact obeys_allocating fun w s ht => ⟨.probed w ht hbusy hlist, ih rfl hbusy hnext⟩

theorem capacityPass_obeys {target : Option SeatName}
    {next : PoolAnswer → Allocation → PoolProgram}
    (hnext : ∀ w t, t.Admitted ring → t.target = target → Obeys ring (next w t)) :
    Obeys ring (capacityPass ring target next) := by
  intro w s
  by_cases hfree : s.allocation = none
  · simp only [hfree, if_true]
    refine ⟨.begun target hfree, probeCandidates_obeys rfl rfl fun t hlist hbusy htarget => ?_⟩
    split
    · exact releaseAllocation_obeys t
    · rename_i hroom
      have hroom' : t.capacityOccupants.length < ring.seatLimit := by omega
      refine obeys_allocating fun w' s' ht => ⟨.admitted ht hbusy hlist hroom', ?_⟩
      exact hnext w' _ ⟨rfl, hlist, hroom', Nat.min_le_right _ _⟩ htarget
  · simp only [hfree, if_false]
    exact ⟨.same .free s, trivial⟩

theorem acquireWorktreeSeat_obeys (dispatchId : String) (reset : Bool) :
    Obeys ring (acquireWorktreeSeat ring dispatchId reset) := by
  unfold acquireWorktreeSeat
  refine capacityPass_obeys fun w t hadmitted htarget => ?_
  refine claimCandidates_obeys hadmitted htarget
    (fun candidate hmem => tries_of_mem_orderedSlots htarget hmem) ?_
  exact fun t' hadmitted' htarget' => createSlots_obeys hadmitted' htarget'

theorem occupyWorktreeSeat_obeys (target : SeatName) (dispatchId : String)
    (expectedPrior : Option String) (allowedPrior : List String) (reset : Bool) :
    Obeys ring
      (occupyWorktreeSeat ring target dispatchId expectedPrior allowedPrior reset) := by
  unfold occupyWorktreeSeat
  refine capacityPass_obeys fun w t hadmitted htarget => obeys_allocating fun w' s ht => ?_
  have hlooked := tryOccupy_looked w' expectedPrior allowedPrior (s.seat target)
  have hclaimed := @tryOccupy_claimed w' expectedPrior allowedPrior (s.seat target)
  generalize tryOccupy w' expectedPrior allowedPrior (s.seat target) = result
    at hlooked hclaimed ⊢
  obtain ⟨claim, seat⟩ := result
  have hlost : Change ring (.claim t.stale) s { s.setSeat target seat with allocation := none } :=
    .looked ht hadmitted hlooked (.inr (.inr rfl))
  cases claim with
  | occupied => exact ⟨hlost, trivial⟩
  | skipped => exact ⟨hlost, trivial⟩
  | failed => exact ⟨hlost, trivial⟩
  | claimed =>
    obtain ⟨hfree, hpresent, hadopted⟩ := hclaimed rfl
    have htries : t.Tries ring target := by
      unfold Allocation.Tries
      rw [htarget]
    have hrecorded : t.target = none → (s.seat target).checkout = true →
        (s.seat target).dispatchId ≠ none := by
      intro hnone
      rw [htarget] at hnone
      cases hnone
    exact ⟨.claimed ht hadmitted htries ⟨hfree, hrecorded, fun _ => hpresent, hadopted⟩,
      prepareClaimedSeat_obeys fun _ => trivial⟩

/-- **Every call** makes these changes only. -/
theorem program_obeys (call : PoolCall) : Obeys ring (call.program ring) := by
  cases call with
  | acquire dispatchId reset => exact acquireWorktreeSeat_obeys dispatchId reset
  | occupy target dispatchId expectedPrior allowedPrior reset =>
    exact occupyWorktreeSeat_obeys target dispatchId expectedPrior allowedPrior reset
  | drop name => exact fun _ s => ⟨.dropped s name, trivial⟩
  | dropAllocation => exact fun _ s => ⟨.released s, trivial⟩
  | withdraw name dispatchId live => exact fun _ s => ⟨.withdrawn s name dispatchId live, trivial⟩

theorem idle_obeys (ring : Ring) (s : Pool) (p : ℕ) :
    Obeys ring ((Resumption.idle s : PoolState).place p) := trivial

end GoalFlight.Worktrees
