import GoalFlight.Worktrees.Changes

/-!
# Worktrees: stranded seats

A registered seat with a checkout, no holder and no record of a dispatch is stranded: the capacity
pass counts it as occupied and the claim pass leaves it out (`Seat.Stranded.occupied_for_ever`).

The record is written last.  A seat is stranded when the record of a new checkout is not written,
when an old one is cleared, or when a withdrawal empties the lock file of a seat whose checkout
stays.  Where all steps of a run are `Tidy` every checkout has a record, or is being bound by the
holder of its lock, and a checkout that nobody holds can be claimed again.
-/

namespace GoalFlight.Worktrees

/-! ### Stranded seats -/

/-- **A stranded seat**: registered, with a checkout, free, without a record. -/
def Seat.Stranded (seat : Seat) : Prop :=
  seat.registered = true ∧ seat.checkout = true ∧ seat.holder = none ∧ seat.dispatchId = none

instance (seat : Seat) : Decidable seat.Stranded := by
  unfold Seat.Stranded
  infer_instance

theorem Seat.Stranded.occupied_for_ever {seat : Seat} (h : seat.Stranded) (w : PoolAnswer)
    (requireAncestor : Bool) :
    seat.countsAsOccupied w = true ∧ (tryCandidate w requireAncestor seat).1 ≠ .claimed := by
  obtain ⟨hregistered, hcheckout, hholder, hdispatch⟩ := h
  constructor
  · unfold Seat.countsAsOccupied
    simp [hregistered, hcheckout, hholder, hdispatch]
  · intro hclaimed
    exact (tryCandidate_claimed hclaimed).2.1 hcheckout hdispatch

/-- Nothing fails, and the recorded dispatch is settled. -/
structure PoolAnswer.Settles (w : PoolAnswer) : Prop where
  lockKnown : w.lockKnown = true
  pathKnown : w.pathKnown = true
  pathStillKnown : w.pathStillKnown = true
  registryReadable : w.registryReadable = true
  opens : w.opens = true
  adopts : w.adopts = true
  settled : w.settled = true

/-- **A seat can be claimed again**: the capacity pass does not count it, and the claim pass
claims it. -/
def Seat.Claimable (seat : Seat) : Prop :=
  ∀ w : PoolAnswer, w.Settles →
    seat.countsAsOccupied w = false ∧ (tryCandidate w false seat).1 = .claimed

/-! ### Accounted seats -/

/-- **An accounted seat**: a checkout has a record, or the holder of the lock is binding it. -/
structure Seat.Accounted (seat : Seat) : Prop where
  record : seat.checkout = true → seat.dispatchId ≠ none ∨ ∃ id, seat.holder = some ⟨id, true⟩
  lockFile : seat.checkout = true → seat.lockFile = true
  held : seat.holder ≠ none → seat.lockFile = true

namespace Seat.Accounted

variable {seat seat' : Seat}

theorem dispatchId_ne_none (h : seat.Accounted) (hcheckout : seat.checkout = true)
    (hfree : seat.holder = none) : seat.dispatchId ≠ none := by
  rcases h.record hcheckout with hrecord | ⟨id, hholder⟩
  · exact hrecord
  · rw [hfree] at hholder
    cases hholder

theorem not_stranded (h : seat.Accounted) : ¬ seat.Stranded := fun hstranded =>
  h.dispatchId_ne_none hstranded.2.1 hstranded.2.2.1 hstranded.2.2.2

theorem claimable (h : seat.Accounted) (hcheckout : seat.checkout = true)
    (hfree : seat.holder = none) : seat.Claimable := by
  intro w hw
  have hfile := h.lockFile hcheckout
  obtain ⟨dispatchId, hrecord⟩ :=
    Option.ne_none_iff_exists'.mp (h.dispatchId_ne_none hcheckout hfree)
  constructor
  · unfold Seat.countsAsOccupied
    simp [hw.lockKnown, hw.pathKnown, hw.registryReadable, hw.opens, hw.settled, hfile, hfree,
      hrecord]
  · unfold tryCandidate
    simp [hw.lockKnown, hw.pathKnown, hw.opens, hw.adopts, hw.pathStillKnown, hfree, hcheckout,
      hrecord]

theorem unused : Seat.unused.Accounted :=
  ⟨fun h => (Bool.false_ne_true h).elim, fun h => (Bool.false_ne_true h).elim,
    fun h => absurd rfl h⟩

theorem looked (h : seat.Accounted) (hlooked : seat.Looked seat') : seat'.Accounted where
  record hcheckout := by
    rw [hlooked.dispatchId, hlooked.holder]
    exact h.record (hlooked.checkout ▸ hcheckout)
  lockFile hcheckout := hlooked.lockFile (h.lockFile (hlooked.checkout ▸ hcheckout))
  held hholder := hlooked.lockFile (h.held (hlooked.holder ▸ hholder))

theorem claimed (h : seat.Accounted) (hfree : seat.holder = none) (id : ℕ) :
    { seat.adopted with holder := some ⟨id, false⟩ : Seat }.Accounted where
  record hcheckout := .inl (h.dispatchId_ne_none hcheckout hfree)
  lockFile _ := rfl
  held _ := rfl

end Seat.Accounted

/-! ### Tidy steps -/

/-- The preparation of a seat leaves no checkout that was not there before. -/
def Preparation.Undone (fresh : Bool) (preparation : Preparation) : Prop :=
  preparation.makes = false ∨ fresh = true ∧ preparation = .error true true

/-- **A tidy preparation**: a seat without a record is made ready, or is left without a
checkout. -/
def Seat.TidyPreparation (seat : Seat) (fresh : Bool) (preparation : Preparation) : Prop :=
  preparation = .ready ∨ seat.dispatchId ≠ none ∨
    seat.checkout = false ∧ preparation.Undone fresh

/-- **A tidy recording**: the record is written, or one is left, or the checkout is removed. -/
def Seat.TidyRecording (seat : Seat) (fresh : Bool) : Recording → Prop
  | .written => True
  | .lost residue removed =>
    residue = .new ∨ residue = .old ∧ seat.dispatchId ≠ none ∨ fresh = true ∧ removed = true

/-- **A tidy step**: a preparation or a recording as above, a holder that goes only when the
checkout has a record, no withdrawal that empties a lock file. -/
def Tidy : PoolLabel → Pool → Prop
  | .prepare name fresh preparation, s => (s.seat name).TidyPreparation fresh preparation
  | .record name fresh recording, s => (s.seat name).TidyRecording fresh recording
  | .drop name, s => (s.seat name).checkout = true → (s.seat name).dispatchId ≠ none
  | .withdraw name dispatchId live, s => ¬ (s.seat name).Withdraws dispatchId live
  | _, _ => True

instance (fresh : Bool) (preparation : Preparation) : Decidable (preparation.Undone fresh) := by
  unfold Preparation.Undone
  infer_instance

instance (seat : Seat) (fresh : Bool) (preparation : Preparation) :
    Decidable (seat.TidyPreparation fresh preparation) := by
  unfold Seat.TidyPreparation
  infer_instance

instance (seat : Seat) (fresh : Bool) (recording : Recording) :
    Decidable (seat.TidyRecording fresh recording) := by
  cases recording <;> unfold Seat.TidyRecording <;> infer_instance

instance (label : PoolLabel) (s : Pool) : Decidable (Tidy label s) := by
  cases label <;> unfold Tidy <;> infer_instance

namespace Seat.Accounted

variable {seat : Seat}

theorem prepared (h : seat.Accounted) (hheld : seat.holder ≠ none) {id : ℕ} {fresh : Bool}
    {preparation : Preparation} (htidy : seat.TidyPreparation fresh preparation) :
    (seat.prepared id fresh preparation).Accounted := by
  have hfile := h.held hheld
  rcases htidy with rfl | hrecord | ⟨hcheckout, hundone⟩
  · exact ⟨fun _ => .inr ⟨id, rfl⟩, fun _ => hfile, fun _ => hfile⟩
  · cases preparation <;>
      exact ⟨fun _ => .inl hrecord, fun _ => hfile, fun _ => hfile⟩
  · -- no checkout is left
    have hnone : preparation = .ready ∨ (seat.prepared id fresh preparation).checkout = false := by
      rcases hundone with hmakes | ⟨hfresh, rfl⟩
      · cases preparation <;> simp_all [Preparation.makes, Seat.prepared]
      · simp [Seat.prepared, hfresh]
    rcases hnone with rfl | hnone
    · exact ⟨fun _ => .inr ⟨id, rfl⟩, fun _ => hfile, fun _ => hfile⟩
    · have habsent : ¬ (seat.prepared id fresh preparation).checkout = true := by
        rw [hnone]
        exact Bool.false_ne_true
      refine ⟨fun hthere => absurd hthere habsent, fun hthere => absurd hthere habsent,
        fun _ => ?_⟩
      cases preparation <;> exact hfile

theorem recorded (h : seat.Accounted) (hheld : seat.holder ≠ none) {id : ℕ} {dispatchId : String}
    {fresh : Bool} {recording : Recording} (htidy : seat.TidyRecording fresh recording) :
    (seat.recorded id dispatchId fresh recording).Accounted := by
  have hfile := h.held hheld
  cases recording with
  | written => exact ⟨fun _ => .inl (Option.some_ne_none _), fun _ => hfile, fun _ => hfile⟩
  | lost residue removed =>
    refine ⟨fun hcheckout => .inl ?_, fun _ => hfile, fun _ => hfile⟩
    rcases htidy with rfl | ⟨rfl, hrecord⟩ | ⟨hfresh, hremoved⟩
    · exact Option.some_ne_none _
    · exact hrecord
    · simp [Seat.recorded, hfresh, hremoved] at hcheckout

theorem dropped (h : seat.Accounted)
    (htidy : seat.checkout = true → seat.dispatchId ≠ none) :
    { seat with holder := none : Seat }.Accounted :=
  ⟨fun hcheckout => .inl (htidy hcheckout), h.lockFile, fun hheld => absurd rfl hheld⟩

end Seat.Accounted

/-! ### The pool -/

/-- Every seat of the pool is accounted for. -/
def AllAccounted (s : Pool) : Prop := ∀ name, (s.seat name).Accounted

theorem AllAccounted.setSeat {s : Pool} (h : AllAccounted s) {name : SeatName} {seat : Seat}
    (hseat : seat.Accounted) : AllAccounted (s.setSeat name seat) := by
  intro other
  unfold Pool.setSeat
  by_cases hother : other = name
  · subst hother
    simpa using hseat
  · simpa [hother] using h other

theorem allAccounted_initial (ring : Ring) : AllAccounted (Pool.initial ring) := by
  intro name
  unfold Pool.initial
  simp only
  split
  · exact ⟨fun _ => .inl (Option.some_ne_none _), fun _ => rfl, fun h => absurd rfl h⟩
  · exact Seat.Accounted.unused

theorem Pool.Holds.holder_ne_none {s : Pool} {id : ℕ} {name : SeatName} (h : s.Holds id name) :
    (s.seat name).holder ≠ none := by
  obtain ⟨holder, hholder, -⟩ := h
  rw [hholder]
  exact Option.some_ne_none _

/-- **Step.**  A tidy change keeps every seat accounted for. -/
theorem AllAccounted.change {ring : Ring} {label : PoolLabel} {s s' : Pool} (h : AllAccounted s)
    (htidy : Tidy label s) (hchange : Change ring label s s') : AllAccounted s' := by
  cases hchange with
  | same | begun | probed | admitted | released | retaken | advanced => exact h
  | looked ht hadmitted hseat hafter => exact h.setSeat ((h _).looked hseat)
  | claimed ht hadmitted htries hseat =>
    rw [hseat.adopted]
    exact h.setSeat ((h _).claimed hseat.free _)
  | prepared fresh preparation hholds =>
    intro other
    rw [Pool.prepare_seat]
    exact h.setSeat ((h _).prepared hholds.holder_ne_none htidy) other
  | recorded dispatchId fresh recording hholds =>
    exact h.setSeat ((h _).recorded hholds.holder_ne_none htidy)
  | dropped _ name => exact h.setSeat ((h name).dropped htidy)
  | withdrawn _ name dispatchId live =>
    unfold Seat.withdrawn
    rw [if_neg htidy]
    exact h.setSeat (h name)

/-- **No seat is stranded** at the end of a run of tidy steps, and a checkout that nobody holds
can be claimed. -/
theorem seats_not_stranded (ring : Ring) {actions : List PoolAction}
    (hmeets : Machine.Meets (Resumption.step (PoolCall.program ring))
      (Resumption.Condition (fun _ => True) Tidy) (Resumption.idle (Pool.initial ring)) actions)
    (name : SeatName) :
    let seat := (PoolState.run ring (Resumption.idle (Pool.initial ring)) actions).shared.seat name
    ¬ seat.Stranded ∧ (seat.checkout = true → seat.holder = none → seat.Claimable) := by
  have haccounted : AllAccounted
      (PoolState.run ring (Resumption.idle (Pool.initial ring)) actions).shared :=
    (Resumption.run_obeys program_obeys (fun _ _ _ hs hguard => hs.change hguard)
      (allAccounted_initial ring) (idle_obeys ring _) hmeets).1
  exact ⟨(haccounted name).not_stranded, (haccounted name).claimable⟩

/-! ### A withdrawal -/

/-- Nothing fails: the seat is made ready and its record is written. -/
def PoolAnswer.smooth : PoolAnswer where
  lockKnown := true
  pathKnown := true
  pathStillKnown := true
  registryReadable := true
  opens := true
  adopts := true
  settled := true
  ancestor := true
  exact _ := true
  ready := true
  refuses := false
  unavailable := false
  made := true
  removed := true
  written := true
  residue := .cleared

/-- A dispatch acquires the only seat of a ring, and lets it go when it has ended. -/
def acquireAndDrop : List PoolAction :=
  .call 0 (.acquire "d" true) :: List.replicate 9 (.turn 0 .smooth) ++
    [.call 0 (.drop (.captive 1)), .turn 0 .smooth]

/-- These steps are tidy, and the seat can be claimed again. -/
theorem seats_not_stranded_acquireAndDrop :
    let seat := (PoolState.run ⟨1, []⟩ (Resumption.idle (Pool.initial ⟨1, []⟩))
      acquireAndDrop).shared.seat (.captive 1)
    ¬ seat.Stranded ∧ (seat.checkout = true → seat.holder = none → seat.Claimable) :=
  seats_not_stranded ⟨1, []⟩ (by decide +kernel) (.captive 1)

/-- **A withdrawal strands a seat**: the dispatch is withdrawn when it has ended, and its seat
counts as occupied and is not claimed, whatever the world answers. -/
theorem withdrawal_strands :
    let seat := (PoolState.run ⟨1, []⟩ (Resumption.idle (Pool.initial ⟨1, []⟩))
      (acquireAndDrop ++
        [.call 0 (.withdraw (.captive 1) "d" false), .turn 0 .smooth])).shared.seat (.captive 1)
    seat.Stranded ∧ ∀ (w : PoolAnswer) (requireAncestor : Bool),
      seat.countsAsOccupied w = true ∧ (tryCandidate w requireAncestor seat).1 ≠ .claimed := by
  intro seat
  have hstranded : seat.Stranded := by decide +kernel
  exact ⟨hstranded, hstranded.occupied_for_ever⟩

end GoalFlight.Worktrees
