import GoalFlight.Acp.PoolTurns

/-!
# ACP: the pool counts every worker it started

Every worker whose group is not proven gone has one entry, or is being rejected by the call that
reserved its key.  So no more of them are left than the pool has room for (`pool_counts_workers`),
in every run in which a removal by key after a kill finds the connection that was killed, and in
which no worker is returned whose kill has begun.
-/

namespace GoalFlight.Acp

/-- The workers whose groups are not proven gone. -/
def Pool.unproven (pool : Pool) : Finset ℕ :=
  (Finset.range pool.spawned).filter fun c => (pool.worker c).gone = false

/-- **The pool counts its workers**: each that is not proven gone has exactly one entry, or none and
a reservation in progress, and there are no more of them than the limits allow. -/
structure CountsWorkers (limits : PoolLimits) (s : PoolState) : Prop where
  owned : ∀ c ∈ s.shared.unproven, (∃! key, s.shared.entry key = some c) ∨
    ((∀ key, s.shared.entry key ≠ some c) ∧
      ∃ p key force, s.place p = .rejecting key c force ∧ key ∈ s.shared.reservations)
  max : s.shared.unproven.card ≤ limits.max
  maxPerAgent : ∀ agent, (s.shared.unproven.filter fun c =>
    (s.shared.worker c).key.1 = agent).card ≤ limits.maxPerAgent

/-- **A step is safe**: a key is dropped only with a worker that is proven gone, and no worker is
returned whose kill has begun. -/
structure PoolStepSafe (limits : PoolLimits) (s : PoolState) (action : PoolAction) : Prop where
  dropped : ∀ key c, s.shared.entry key = some c →
    (poolStep limits s action).shared.entry key ≠ some c →
      ((poolStep limits s action).shared.worker c).gone = true
  returned : ∀ p c, s.place p ≠ .returned c → (poolStep limits s action).place p = .returned c →
    (s.shared.worker c).killed = false

section Counting

variable {limits : PoolLimits} {s : PoolState} {c : ℕ}

theorem mem_unproven : c ∈ s.shared.unproven ↔
    c < s.shared.spawned ∧ (s.shared.worker c).gone = false := by
  unfold Pool.unproven
  rw [Finset.mem_filter, Finset.mem_range]

section

variable (h : SoundCalls limits s)
include h

/-- **A worker that is not proven gone** has its entry, or is being rejected. -/
theorem owner_cases (hc : c ∈ s.shared.unproven) :
    s.shared.entry (s.shared.worker c).key = some c ∨
      ∃ p force, s.place p = .rejecting (s.shared.worker c).key c force := by
  obtain ⟨hlt, hlive⟩ := mem_unproven.mp hc
  rcases h.inv.owned c hlt with hgone | hentry | ⟨p, hp⟩
  · rw [hlive] at hgone
    cases hgone
  · exact .inl hentry
  · obtain ⟨key, force, hplace⟩ := (h.ok p).rejected c hlt hp
    have hat := h.ok p
    rw [hplace] at hat
    obtain ⟨_, _, hkey, _⟩ := hat.place
    refine .inr ⟨p, force, ?_⟩
    rw [hkey]
    exact hplace

theorem rejecting_facts {p : ℕ} {key : PoolKey} {force : Bool}
    (hplace : s.place p = .rejecting key c force) :
    key ∈ s.shared.reservations ∧ s.shared.reserver key = some p ∧ s.shared.entry key = none ∧
      (s.shared.worker c).rejectedBy = some p := by
  have hat := h.ok p
  rw [hplace] at hat
  obtain ⟨hmem, howner⟩ := hat.reserved key rfl
  obtain ⟨hnone, _, _, hmine⟩ := hat.place
  exact ⟨hmem, howner, hnone, hmine⟩

/-- **Its key is occupied.** -/
theorem key_occupied (hc : c ∈ s.shared.unproven) :
    (s.shared.worker c).key ∈ s.shared.occupied := by
  rcases owner_cases h hc with hentry | ⟨p, force, hplace⟩
  · exact mem_occupied.mpr (.inl (mem_keys_of_entry hentry))
  · exact mem_occupied.mpr (.inr (rejecting_facts h hplace).1)

/-- **No two of them have the same key.** -/
theorem key_injective :
    Set.InjOn (fun c => (s.shared.worker c).key) s.shared.unproven := by
  intro c hc c' hc' hkey
  have hkey : (s.shared.worker c).key = (s.shared.worker c').key := hkey
  rcases owner_cases h hc with hentry | ⟨p, force, hplace⟩
  · rcases owner_cases h hc' with hentry' | ⟨p', force', hplace'⟩
    · rw [hkey, hentry'] at hentry
      exact (Option.some.inj hentry).symm
    · rw [hkey, (rejecting_facts h hplace').2.2.1] at hentry
      cases hentry
  · obtain ⟨_, howner, hnone, _⟩ := rejecting_facts h hplace
    rcases owner_cases h hc' with hentry' | ⟨p', force', hplace'⟩
    · rw [← hkey, hnone] at hentry'
      cases hentry'
    · obtain ⟨_, howner', _, _⟩ := rejecting_facts h hplace'
      rw [← hkey, howner] at howner'
      cases howner'
      rw [hplace] at hplace'
      injection hplace'

/-- **The pool counts its workers** in every state that the calls keep sound. -/
theorem countsWorkers : CountsWorkers limits s where
  owned c hc := by
    obtain ⟨hlt, _⟩ := mem_unproven.mp hc
    rcases owner_cases h hc with hentry | ⟨p, force, hplace⟩
    · refine .inl ⟨_, hentry, fun key hkey => ?_⟩
      exact (h.inv.entries key c hkey).2.1.symm
    · obtain ⟨hmem, _, _, hmine⟩ := rejecting_facts h hplace
      refine .inr ⟨fun key hkey => ?_, p, _, force, hplace, hmem⟩
      rw [(h.inv.entries key c hkey).2.2] at hmine
      cases hmine
  max := Nat.le_trans (Finset.card_le_card_of_injOn _ (fun _ hc => key_occupied h hc)
    (key_injective h)) h.inv.max
  maxPerAgent agent := by
    refine Nat.le_trans (Finset.card_le_card_of_injOn (fun c => (s.shared.worker c).key) ?_ ?_)
      (h.inv.maxPerAgent agent)
    · intro c hc
      obtain ⟨hmem, hagent⟩ := Finset.mem_filter.mp hc
      exact Finset.mem_filter.mpr ⟨key_occupied h hmem, hagent⟩
    · exact (key_injective h).mono fun c hc => (Finset.mem_filter.mp hc).1

end

end Counting

/-! ### Returns -/

section Returns

variable {limits : PoolLimits} {s : PoolState} {p c : ℕ} {pool : Pool}

theorem afterKill_not_returned {i : ℕ} {confirmed : Bool} {next : AfterKill} :
    (afterKill pool i confirmed next).2 ≠ .returned c := by
  cases next with
  | rebuild key posture =>
    unfold afterKill
    dsimp only
    split <;> exact nofun
  | handshake key =>
    unfold afterKill
    dsimp only
    split <;> exact nofun
  | close key => exact nofun
  | sweep kind key left => exact nofun

/-- **A turn returns a worker** only after its handshake. -/
theorem returned_of_turn {a : PoolAnswer} {place : PoolPlace}
    (h : (poolTurn a p pool place).2 = .returned c) :
    place = .returned c ∨
      ∃ key, place = .handshaking key c ∧ a.ok = true ∧ a.cancelled = false := by
  cases place with
  | idle => cases h
  | killing i closing next =>
    exfalso
    revert h
    show (killTurn a pool i closing next).2 ≠ .returned c
    unfold killTurn
    split
    · exact nofun
    · split
      · exact afterKill_not_returned
      · split
        · exact nofun
        · exact afterKill_not_returned
  | spawning key posture =>
    exfalso
    revert h
    show (spawnTurn a p pool key posture).2 ≠ .returned c
    unfold spawnTurn
    split
    · exact nofun
    · split <;> exact nofun
  | rejecting key i force =>
    exfalso
    revert h
    show (rejectTurn a pool key i force).2 ≠ .returned c
    unfold rejectTurn
    split <;> exact nofun
  | handshaking key i =>
    unfold poolTurn at h
    dsimp only at h
    split at h
    · rename_i hok
      cases h
      rw [Bool.and_eq_true, Bool.not_eq_true'] at hok
      exact .inr ⟨key, rfl, hok.1, hok.2⟩
    · cases h
  | pinging left dead =>
    exfalso
    revert h
    cases left with
    | nil => exact nofun
    | cons item left =>
      unfold poolTurn
      dsimp only
      split
      · exact nofun
      · split <;> exact nofun
  | sweeping kind left =>
    exfalso
    revert h
    show (sweepTurn pool kind left).2 ≠ .returned c
    cases left with
    | nil => exact nofun
    | cons item left =>
      unfold sweepTurn
      dsimp only
      split <;> exact nofun
  | returned i => exact .inl h
  | ended => cases h

/-- **`get_or_create` returns a worker at once** only where it can reuse it. -/
theorem returned_of_admission {key : PoolKey} {posture : Posture}
    (h : (admission p pool limits key posture).2 = .returned c) :
    key ∉ pool.reservations ∧ pool.entry key = some c ∧ pool.canReuse c posture = true := by
  unfold admission at h
  split at h
  · cases h
  · rename_i hfree
    split at h
    · rename_i i hentry
      split at h
      · rename_i hreuse
        cases h
        exact ⟨hfree, hentry, hreuse⟩
      · cases h
    · split at h
      · cases h
      · split at h <;> cases h

theorem place_of_beginCall {q : ℕ} {next : Pool × PoolPlace}
    (h : (beginCall s p next).place q = .returned c) :
    s.place q = .returned c ∨ next.2 = .returned c := by
  unfold beginCall at h
  split at h
  · by_cases hq : q = p
    · subst hq
      rw [s.turn_place_self] at h
      exact .inr h
    · rw [s.turn_place_of_ne hq] at h
      exact .inl h
  · exact .inl h

theorem poolStepSafe (h : SoundCalls limits s) (action : PoolAction)
    (hheeds : poolHeeds s action = true) : PoolStepSafe limits s action where
  dropped key c hentry hne :=
    (poolStep_keeps action h hheeds).2.2.2 key c hentry (h.inv.entries key c hentry).1 hne
  returned q c hbefore hafter := by
    cases action with
    | getOrCreate p key posture =>
      rcases place_of_beginCall hafter with hsame | hnext
      · exact absurd hsame hbefore
      · obtain ⟨hfree, hentry, hreuse⟩ := returned_of_admission hnext
        simpa [poolHeeds, hfree, hentry, hreuse] using hheeds
    | close p key =>
      rcases place_of_beginCall hafter with hsame | hnext
      · exact absurd hsame hbefore
      · revert hnext
        unfold beginClose
        split <;> rintro ⟨⟩
    | remove key confirmed => exact absurd hafter hbefore
    | cleanupIdle p stale =>
      rcases place_of_beginCall hafter with hsame | hnext
      · exact absurd hsame hbefore
      · cases hnext
    | healthCheck p =>
      rcases place_of_beginCall hafter with hsame | hnext
      · exact absurd hsame hbefore
      · cases hnext
    | shutdown p =>
      rcases place_of_beginCall hafter with hsame | hnext
      · exact absurd hsame hbefore
      · cases hnext
    | exit i => exact absurd hafter hbefore
    | turn p a =>
      by_cases hq : q = p
      · subst hq
        have hturn : (poolTurn a q s.shared (s.place q)).2 = .returned c := by
          rw [← hafter]
          exact (s.turn_place_self q _).symm
        rcases returned_of_turn hturn with hsame | ⟨key, hplace, hok, hcancelled⟩
        · exact absurd hsame hbefore
        · rw [poolHeeds, hplace] at hheeds
          simpa [turnHeeds, hok, hcancelled] using hheeds
      · refine absurd ?_ hbefore
        rw [← hafter]
        exact (s.turn_place_of_ne hq _).symm

end Returns

/-! ### Every run -/

/-- **What the pool promises** of a run. -/
def PoolSafe (limits : PoolLimits) (actions : List PoolAction) : Prop :=
  (∀ before after, actions = before ++ after →
    CountsWorkers limits (Machine.run (poolStep limits) PoolState.start before)) ∧
  Machine.Meets (poolStep limits) (PoolStepSafe limits) PoolState.start actions

/-- **The pool counts every worker it started**, in every run in which each removal by key after a
kill finds the connection that was killed, and each worker that `get_or_create` reuses, or whose
handshake succeeds, is one that no call has begun to kill. -/
theorem pool_counts_workers (limits : PoolLimits) (actions : List PoolAction)
    (hheeds : Machine.Meets (poolStep limits) (fun s a => poolHeeds s a = true) PoolState.start
      actions) : PoolSafe limits actions := by
  refine ⟨fun before after heq => ?_, ?_⟩
  · rw [heq, Machine.meets_append] at hheeds
    exact countsWorkers (@Machine.run_invariant_of_meets _ _ (poolStep limits)
      (fun s a => poolHeeds s a = true) (SoundCalls limits)
      (fun _ a h ha => (poolStep_keeps a h ha).1) _ _ soundCalls_start hheeds.1)
  · exact @Machine.meets_of_invariant _ _ (poolStep limits) (fun s a => poolHeeds s a = true) _
      (SoundCalls limits) (fun _ a h ha => ⟨(poolStep_keeps a h ha).1, poolStepSafe h a ha⟩) _ _
      soundCalls_start hheeds

/-! ### Runs with and without overlapping calls -/

/-- The posture of a worker in a project. -/
def inProject : Posture := ⟨true, "off", some "/project", []⟩

/-- Nothing goes wrong at an await. -/
def goesOn : PoolAnswer := ⟨false, true, true, .connected⟩

/-- One worker is started, closed and started again. -/
def restartedRun : List PoolAction :=
  [.getOrCreate 0 ("codex", "a") inProject, .turn 0 goesOn, .turn 0 goesOn,
    .close 1 ("codex", "a"), .exit 0, .turn 1 goesOn, .turn 1 goesOn,
    .getOrCreate 2 ("codex", "a") inProject, .turn 2 goesOn, .turn 2 goesOn]

theorem pool_counts_restarted :
    PoolSafe ⟨1, 1⟩ restartedRun ∧
      (Machine.run (poolStep ⟨1, 1⟩) PoolState.start restartedRun).place 2 = .returned 1 :=
  ⟨pool_counts_workers ⟨1, 1⟩ restartedRun (by decide +kernel), by decide +kernel⟩

/-- While `close` awaits the end of a worker that has exited, `get_or_create` builds the key anew.
Then `close` removes the key, and another session is admitted. -/
def overlappedRun : List PoolAction :=
  [.getOrCreate 0 ("codex", "a") inProject, .turn 0 goesOn, .turn 0 goesOn,
    .close 1 ("codex", "a"), .exit 0, .turn 1 goesOn,
    .getOrCreate 2 ("codex", "a") inProject, .turn 2 goesOn, .turn 2 goesOn, .turn 2 goesOn,
    .turn 2 goesOn, .turn 1 goesOn,
    .getOrCreate 3 ("codex", "b") inProject, .turn 3 goesOn]

/-- While `close` awaits the end of a worker, `get_or_create` returns it. -/
def reusedRun : List PoolAction :=
  [.getOrCreate 0 ("codex", "a") inProject, .turn 0 goesOn, .turn 0 goesOn,
    .close 1 ("codex", "a"), .getOrCreate 2 ("codex", "a") inProject]

/-- **A worker that is not counted**, beyond the limits, and one that is returned while it is
killed. -/
theorem rebuilt_worker_uncounted :
    ¬ PoolSafe ⟨1, 1⟩ overlappedRun ∧ ¬ PoolSafe ⟨1, 1⟩ reusedRun := by
  refine ⟨fun h => ?_, fun h => ?_⟩
  · have hmax := (h.1 overlappedRun [] (List.append_nil _).symm).max
    revert hmax
    decide +kernel
  · have hmeets := h.2
    rw [show reusedRun = reusedRun.take 4 ++ reusedRun.drop 4 from rfl, Machine.meets_append] at hmeets
    have hreturned := hmeets.2.1.returned 2 0 (by decide +kernel) (by decide +kernel)
    revert hreturned
    decide +kernel

end GoalFlight.Acp
