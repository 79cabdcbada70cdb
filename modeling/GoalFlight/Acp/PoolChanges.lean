import GoalFlight.Acp.Pool

/-!
# ACP: the changes of the pool

Every change that a call makes to the pool is a chain of a few small ones.  Each keeps what the
other calls rely on (`Frame`): their reservations stay theirs, no entry appears under a key that
they have reserved, and a worker that is proven gone stays so.
-/

namespace GoalFlight.Acp

/-- **What holds of the pool.** -/
structure SoundPool (limits : PoolLimits) (pool : Pool) : Prop where
  entries : ∀ key c, pool.entry key = some c →
    c < pool.spawned ∧ (pool.worker c).key = key ∧ (pool.worker c).rejectedBy = none
  owned : ∀ c, c < pool.spawned → (pool.worker c).gone = true ∨
    pool.entry (pool.worker c).key = some c ∨ ∃ p, (pool.worker c).rejectedBy = some p
  max : pool.occupied.card ≤ limits.max
  maxPerAgent : ∀ agent, pool.countAgent agent ≤ limits.maxPerAgent

/-- **What a call relies on** of the steps of the others. -/
structure PoolFrame (pool pool' : Pool) (q : ℕ) : Prop where
  spawned : pool.spawned ≤ pool'.spawned
  key : ∀ c, c < pool.spawned → (pool'.worker c).key = (pool.worker c).key
  gone : ∀ c, c < pool.spawned → (pool.worker c).gone = true → (pool'.worker c).gone = true
  rejected : ∀ c, c < pool'.spawned → (pool'.worker c).rejectedBy = some q →
    c < pool.spawned ∧ (pool.worker c).rejectedBy = some q
  rejects : ∀ c, c < pool.spawned → (pool.worker c).rejectedBy = some q →
    (pool'.worker c).rejectedBy = some q
  reserved : ∀ key, key ∈ pool.reservations → pool.reserver key = some q →
    key ∈ pool'.reservations ∧ pool'.reserver key = some q
  entry : ∀ key, key ∈ pool.reservations → pool.reserver key = some q → ∀ c,
    pool'.entry key = some c → pool.entry key = some c

/-- **An entry goes only with a worker that is gone.** -/
def Drops (pool pool' : Pool) : Prop :=
  (∀ c, c < pool.spawned → (pool.worker c).gone = true → (pool'.worker c).gone = true) ∧
    pool.spawned ≤ pool'.spawned ∧
    ∀ key c, pool.entry key = some c → c < pool.spawned → pool'.entry key ≠ some c →
      (pool'.worker c).gone = true

section Relations

variable {a b c : Pool} {q : ℕ}

theorem PoolFrame.refl : PoolFrame a a q where
  spawned := Nat.le_refl _
  key _ _ := rfl
  gone _ _ h := h
  rejected _ hc h := ⟨hc, h⟩
  rejects _ _ h := h
  reserved _ hkey hq := ⟨hkey, hq⟩
  entry _ _ _ _ h := h

theorem PoolFrame.trans (hab : PoolFrame a b q) (hbc : PoolFrame b c q) : PoolFrame a c q where
  spawned := Nat.le_trans hab.spawned hbc.spawned
  key i hi := (hbc.key i (Nat.lt_of_lt_of_le hi hab.spawned)).trans (hab.key i hi)
  gone i hi h := hbc.gone i (Nat.lt_of_lt_of_le hi hab.spawned) (hab.gone i hi h)
  rejected i hi h := by
    obtain ⟨hib, hb⟩ := hbc.rejected i hi h
    exact hab.rejected i hib hb
  rejects i hi h := hbc.rejects i (Nat.lt_of_lt_of_le hi hab.spawned) (hab.rejects i hi h)
  reserved key hkey hq := by
    obtain ⟨hkey', hq'⟩ := hab.reserved key hkey hq
    exact hbc.reserved key hkey' hq'
  entry key hkey hq i h := by
    obtain ⟨hkey', hq'⟩ := hab.reserved key hkey hq
    exact hab.entry key hkey hq i (hbc.entry key hkey' hq' i h)

theorem Drops.refl : Drops a a := ⟨fun _ _ h => h, Nat.le_refl _, fun _ _ h _ hne => absurd h hne⟩

theorem Drops.trans (hab : Drops a b) (hbc : Drops b c) : Drops a c := by
  obtain ⟨hgone, hspawned, hdrops⟩ := hab
  obtain ⟨hgone', hspawned', hdrops'⟩ := hbc
  refine ⟨fun i hi h => hgone' i (Nat.lt_of_lt_of_le hi hspawned) (hgone i hi h),
    Nat.le_trans hspawned hspawned', fun key i h hi hne => ?_⟩
  by_cases hmid : b.entry key = some i
  · exact hdrops' key i hmid (Nat.lt_of_lt_of_le hi hspawned) hne
  · exact hgone' i (Nat.lt_of_lt_of_le hi hspawned) (hdrops key i h hi hmid)

end Relations

/-! ### Entries -/

section Entries

variable {pool : Pool} {key k : PoolKey} {c : ℕ}

@[simp] theorem entry_put_self : (pool.put key c).entry key = some c := AList.lookup_insert _

theorem entry_put_of_ne (hne : k ≠ key) : (pool.put key c).entry k = pool.entry k :=
  AList.lookup_insert_ne hne

@[simp] theorem entry_pop_self : (pool.pop key).entry key = none := AList.lookup_erase _ _

theorem entry_pop_of_ne (hne : k ≠ key) : (pool.pop key).entry k = pool.entry k :=
  AList.lookup_erase_ne hne

theorem entry_of_pop (h : (pool.pop key).entry k = some c) : pool.entry k = some c := by
  by_cases hk : k = key
  · rw [hk, entry_pop_self] at h
    cases h
  · rw [entry_pop_of_ne hk] at h
    exact h

theorem mem_keys_of_entry (h : pool.entry key = some c) : key ∈ pool.connections.keys := by
  rw [← AList.mem_keys, ← AList.lookup_isSome]
  show (pool.entry key).isSome = true
  rw [h]
  rfl

theorem mem_occupied : key ∈ pool.occupied ↔ key ∈ pool.connections.keys ∨ key ∈ pool.reservations := by
  unfold Pool.occupied
  rw [Finset.mem_union, List.mem_toFinset]

end Entries

/-! ### Limits -/

section Limits

variable {limits : PoolLimits} {pool pool' : Pool}

theorem limits_of_subset (h : pool'.occupied ⊆ pool.occupied)
    (hmax : pool.occupied.card ≤ limits.max)
    (hagent : ∀ agent, pool.countAgent agent ≤ limits.maxPerAgent) :
    pool'.occupied.card ≤ limits.max ∧ ∀ agent, pool'.countAgent agent ≤ limits.maxPerAgent :=
  ⟨Nat.le_trans (Finset.card_le_card h) hmax, fun agent =>
    Nat.le_trans (Finset.card_le_card (Finset.filter_subset_filter _ h)) (hagent agent)⟩

/-- **One more key is occupied**, where the limits leave room. -/
theorem limits_of_insert {key : PoolKey} (h : pool'.occupied ⊆ insert key pool.occupied)
    (hagent : ∀ agent, pool.countAgent agent ≤ limits.maxPerAgent)
    (hroom : pool.occupied.card < limits.max)
    (hroomAgent : pool.countAgent key.1 < limits.maxPerAgent) :
    pool'.occupied.card ≤ limits.max ∧ ∀ agent, pool'.countAgent agent ≤ limits.maxPerAgent := by
  have hinsert : (insert key pool.occupied).card ≤ pool.occupied.card + 1 := Finset.card_insert_le _ _
  refine ⟨Nat.le_trans (Finset.card_le_card h) (by omega), fun agent => ?_⟩
  have hfilter : pool'.countAgent agent ≤
      ((insert key pool.occupied).filter fun k => k.1 = agent).card :=
    Finset.card_le_card (Finset.filter_subset_filter _ h)
  by_cases hkey : key.1 = agent
  · rw [Finset.filter_insert, if_pos hkey] at hfilter
    have hcard := Finset.card_insert_le key (pool.occupied.filter fun k => k.1 = agent)
    rw [hkey] at hroomAgent
    unfold Pool.countAgent at *
    omega
  · rw [Finset.filter_insert, if_neg hkey] at hfilter
    exact Nat.le_trans hfilter (hagent agent)

theorem occupied_put {key : PoolKey} {c : ℕ} (hreserved : key ∈ pool.reservations) :
    (pool.put key c).occupied ⊆ pool.occupied := by
  intro k hk
  rw [mem_occupied] at hk ⊢
  rcases hk with hk | hk
  · rw [← AList.mem_keys] at hk ⊢
    rcases (AList.mem_insert _).mp hk with rfl | hk
    · exact .inr hreserved
    · exact .inl hk
  · exact .inr hk

end Limits

/-! ### Small changes -/

section Small

variable {limits : PoolLimits} {pool : Pool} {p q : ℕ} {key : PoolKey} {c : ℕ}

/-- **A change of a worker** that leaves its key and its rejection, and that does not bring it back. -/
structure Harmless (change : Worker → Worker) : Prop where
  key : ∀ w, (change w).key = w.key
  rejectedBy : ∀ w, (change w).rejectedBy = w.rejectedBy
  gone : ∀ w, w.gone = true → (change w).gone = true

variable {change : Worker → Worker}

theorem update_worker (h : Harmless change) (i : ℕ) :
    ((pool.update c change).worker i).key = (pool.worker i).key ∧
      ((pool.update c change).worker i).rejectedBy = (pool.worker i).rejectedBy ∧
      ((pool.worker i).gone = true → ((pool.update c change).worker i).gone = true) := by
  by_cases hi : i = c
  · subst hi
    have hself : (pool.update i change).worker i = change (pool.worker i) :=
      Function.update_self ..
    rw [hself]
    exact ⟨h.key _, h.rejectedBy _, h.gone _⟩
  · have hother : (pool.update c change).worker i = pool.worker i := Function.update_of_ne hi ..
    rw [hother]
    exact ⟨rfl, rfl, id⟩

theorem SoundPool.update (hsound : SoundPool limits pool) (h : Harmless change) :
    SoundPool limits (pool.update c change) where
  entries k i hi := by
    obtain ⟨hlt, hkey, hrejected⟩ := hsound.entries k i hi
    obtain ⟨hkey', hrejected', _⟩ := update_worker (c := c) h i
    exact ⟨hlt, hkey'.trans hkey, hrejected'.trans hrejected⟩
  owned i hi := by
    obtain ⟨hkey, hrejected, hgone⟩ := update_worker (c := c) h i
    rw [hkey, hrejected]
    rcases hsound.owned i hi with hg | hentry
    · exact .inl (hgone hg)
    · exact .inr hentry
  max := hsound.max
  maxPerAgent := hsound.maxPerAgent

theorem PoolFrame.update (h : Harmless change) : PoolFrame pool (pool.update c change) q where
  spawned := Nat.le_refl _
  key i _ := (update_worker h i).1
  gone i _ := (update_worker h i).2.2
  rejected i hi hq := ⟨hi, by rw [← (update_worker (c := c) h i).2.1]; exact hq⟩
  rejects i _ hq := by rw [(update_worker h i).2.1]; exact hq
  reserved _ hkey hq := ⟨hkey, hq⟩
  entry _ _ _ _ hi := hi

theorem Drops.update (h : Harmless change) : Drops pool (pool.update c change) :=
  ⟨fun i _ => (update_worker h i).2.2, Nat.le_refl _, fun _ _ hi _ hne => absurd hi hne⟩

theorem harmless_beginKill : Harmless fun w => { w with killed := true } :=
  ⟨fun _ => rfl, fun _ => rfl, fun _ h => h⟩

theorem harmless_markGone : Harmless fun w => { w with gone := true } :=
  ⟨fun _ => rfl, fun _ => rfl, fun _ _ => rfl⟩

theorem harmless_markUnusable : Harmless fun w => { w with reusable := false } :=
  ⟨fun _ => rfl, fun _ => rfl, fun _ h => h⟩

theorem harmless_exited : Harmless fun w => { w with exited := true } :=
  ⟨fun _ => rfl, fun _ => rfl, fun _ h => h⟩

/-! ### An entry is removed -/

theorem SoundPool.pop (hsound : SoundPool limits pool)
    (hgone : ∀ i, pool.entry key = some i → (pool.worker i).gone = true) :
    SoundPool limits (pool.pop key) := by
  have hoccupied : (pool.pop key).occupied ⊆ pool.occupied := by
    intro k hk
    rw [mem_occupied] at hk ⊢
    refine hk.imp_left fun hk => ?_
    rw [← AList.mem_keys] at hk ⊢
    exact (AList.mem_erase.mp hk).2
  obtain ⟨hmax, hagent⟩ := limits_of_subset hoccupied hsound.max hsound.maxPerAgent
  refine ⟨fun k i hi => hsound.entries k i (entry_of_pop hi), fun i hi => ?_, hmax, hagent⟩
  rcases hsound.owned i hi with hg | hentry | hrejected
  · exact .inl hg
  · by_cases hkey : (pool.worker i).key = key
    · rw [hkey] at hentry
      exact .inl (hgone i hentry)
    · exact .inr (.inl ((entry_pop_of_ne hkey).trans hentry))
  · exact .inr (.inr hrejected)

theorem PoolFrame.pop : PoolFrame pool (pool.pop key) q where
  spawned := Nat.le_refl _
  key _ _ := rfl
  gone _ _ h := h
  rejected _ hi h := ⟨hi, h⟩
  rejects _ _ h := h
  reserved _ hkey hq := ⟨hkey, hq⟩
  entry _ _ _ _ hi := entry_of_pop hi

theorem Drops.pop (hgone : ∀ i, pool.entry key = some i → (pool.worker i).gone = true) :
    Drops pool (pool.pop key) := by
  refine ⟨fun _ _ h => h, Nat.le_refl _, fun k i hi _ hne => ?_⟩
  by_cases hk : k = key
  · rw [hk] at hi
    exact hgone i hi
  · rw [entry_pop_of_ne hk] at hne
    exact absurd hi hne

/-! ### Reservations -/

theorem SoundPool.release (hsound : SoundPool limits pool) : SoundPool limits (pool.release key) := by
  have hoccupied : (pool.release key).occupied ⊆ pool.occupied := by
    intro k hk
    rw [mem_occupied] at hk ⊢
    exact hk.imp_right fun hk => Finset.mem_of_mem_erase hk
  obtain ⟨hmax, hagent⟩ := limits_of_subset hoccupied hsound.max hsound.maxPerAgent
  exact ⟨hsound.entries, hsound.owned, hmax, hagent⟩

theorem PoolFrame.release (hne : q ≠ p) (howner : pool.reserver key = some p) :
    PoolFrame pool (pool.release key) q where
  spawned := Nat.le_refl _
  key _ _ := rfl
  gone _ _ h := h
  rejected _ hi h := ⟨hi, h⟩
  rejects _ _ h := h
  reserved k hk hq := by
    have hkey : k ≠ key := by
      rintro rfl
      rw [howner] at hq
      exact hne (Option.some.inj hq).symm
    exact ⟨Finset.mem_erase.mpr ⟨hkey, hk⟩, hq⟩
  entry _ _ _ _ hi := hi

theorem Drops.release : Drops pool (pool.release key) :=
  ⟨fun _ _ h => h, Nat.le_refl _, fun _ _ hi _ hne => absurd hi hne⟩

theorem SoundPool.reserve (hsound : SoundPool limits pool)
    (hroom : key ∈ pool.connections.keys ∨
      (pool.occupied.card < limits.max ∧ pool.countAgent key.1 < limits.maxPerAgent)) :
    SoundPool limits (pool.reserve p key) := by
  have hinsert : (pool.reserve p key).occupied ⊆ insert key pool.occupied := by
    intro k hk
    rw [Finset.mem_insert, mem_occupied]
    rw [mem_occupied] at hk
    rcases hk with hk | hk
    · exact .inr (.inl hk)
    · rcases Finset.mem_insert.mp hk with rfl | hk
      · exact .inl rfl
      · exact .inr (.inr hk)
  have hlimits : (pool.reserve p key).occupied.card ≤ limits.max ∧
      ∀ agent, (pool.reserve p key).countAgent agent ≤ limits.maxPerAgent := by
    rcases hroom with hkey | ⟨hcard, hagent⟩
    · refine limits_of_subset (fun k hk => ?_) hsound.max hsound.maxPerAgent
      rcases Finset.mem_insert.mp (hinsert hk) with rfl | hk
      · exact mem_occupied.mpr (.inl hkey)
      · exact hk
    · exact limits_of_insert hinsert hsound.maxPerAgent hcard hagent
  exact ⟨hsound.entries, hsound.owned, hlimits.1, hlimits.2⟩

theorem PoolFrame.reserve (hfree : key ∉ pool.reservations) :
    PoolFrame pool (pool.reserve p key) q where
  spawned := Nat.le_refl _
  key _ _ := rfl
  gone _ _ h := h
  rejected _ hi h := ⟨hi, h⟩
  rejects _ _ h := h
  reserved k hk hq := by
    have hne : k ≠ key := by
      rintro rfl
      exact hfree hk
    exact ⟨Finset.mem_insert_of_mem hk, (Function.update_of_ne hne ..).trans hq⟩
  entry _ _ _ _ hi := hi

theorem Drops.reserve : Drops pool (pool.reserve p key) :=
  ⟨fun _ _ h => h, Nat.le_refl _, fun _ _ hi _ hne => absurd hi hne⟩

/-! ### A spawned worker -/

variable {posture : Posture} {reusable : Bool} {rejectedBy : Option ℕ}

theorem spawn_worker_self : (pool.spawn key posture reusable rejectedBy).worker pool.spawned =
    ⟨key, posture, reusable, false, false, false, rejectedBy⟩ := Function.update_self ..

theorem spawn_worker_of_lt {i : ℕ} (hi : i < pool.spawned) :
    (pool.spawn key posture reusable rejectedBy).worker i = pool.worker i :=
  Function.update_of_ne (Nat.ne_of_lt hi) ..

/-- **A worker is spawned and rejected.** -/
theorem SoundPool.spawnRejected (hsound : SoundPool limits pool) :
    SoundPool limits (pool.spawn key posture reusable (some p)) where
  entries k i hi := by
    obtain ⟨hlt, hkey, hrejected⟩ := hsound.entries k i hi
    rw [spawn_worker_of_lt hlt]
    exact ⟨Nat.lt_succ_of_lt hlt, hkey, hrejected⟩
  owned i hi := by
    rcases Nat.lt_succ_iff_lt_or_eq.mp hi with hlt | rfl
    · rw [spawn_worker_of_lt hlt]
      exact hsound.owned i hlt
    · rw [spawn_worker_self]
      exact .inr (.inr ⟨p, rfl⟩)
  max := hsound.max
  maxPerAgent := hsound.maxPerAgent

/-- **A worker is spawned and entered** under its key. -/
theorem SoundPool.spawnPut (hsound : SoundPool limits pool) (hreserved : key ∈ pool.reservations)
    (hnone : pool.entry key = none) :
    SoundPool limits ((pool.spawn key posture reusable none).put key pool.spawned) := by
  obtain ⟨hmax, hagent⟩ := limits_of_subset
    (occupied_put hreserved) hsound.max
    hsound.maxPerAgent
  refine ⟨fun k i hi => ?_, fun i hi => ?_, hmax, hagent⟩
  · by_cases hk : k = key
    · rw [hk, entry_put_self] at hi
      cases hi
      refine ⟨Nat.lt_succ_self _, ?_, ?_⟩
      · exact (congrArg Worker.key spawn_worker_self).trans hk.symm
      · exact congrArg Worker.rejectedBy spawn_worker_self
    · rw [entry_put_of_ne hk] at hi
      obtain ⟨hlt, hkey, hrejected⟩ := hsound.entries k i hi
      refine ⟨Nat.lt_succ_of_lt hlt, ?_, ?_⟩
      · exact (congrArg Worker.key (spawn_worker_of_lt hlt)).trans hkey
      · exact (congrArg Worker.rejectedBy (spawn_worker_of_lt hlt)).trans hrejected
  · show ((pool.spawn key posture reusable none).worker i).gone = true ∨
      ((pool.spawn key posture reusable none).put key pool.spawned).entry
        ((pool.spawn key posture reusable none).worker i).key = some i ∨
      ∃ p, ((pool.spawn key posture reusable none).worker i).rejectedBy = some p
    rcases Nat.lt_succ_iff_lt_or_eq.mp hi with hlt | rfl
    · rw [spawn_worker_of_lt hlt]
      refine (hsound.owned i hlt).imp_right fun howned => howned.imp_left fun hentry => ?_
      have hne : (pool.worker i).key ≠ key := by
        intro hkey
        rw [hkey, hnone] at hentry
        cases hentry
      exact (entry_put_of_ne hne).trans hentry
    · rw [spawn_worker_self]
      exact .inr (.inl entry_put_self)

theorem PoolFrame.spawn (hq : rejectedBy ≠ some q) :
    PoolFrame pool (pool.spawn key posture reusable rejectedBy) q where
  spawned := Nat.le_succ _
  key i hi := by rw [spawn_worker_of_lt hi]
  gone i hi h := by rw [spawn_worker_of_lt hi]; exact h
  rejected i hi h := by
    rcases Nat.lt_succ_iff_lt_or_eq.mp hi with hlt | rfl
    · rw [spawn_worker_of_lt hlt] at h
      exact ⟨hlt, h⟩
    · rw [spawn_worker_self] at h
      exact absurd h hq
  rejects i hi h := by rw [spawn_worker_of_lt hi]; exact h
  reserved _ hkey hq := ⟨hkey, hq⟩
  entry _ _ _ _ hi := hi

theorem Drops.spawn : Drops pool (pool.spawn key posture reusable rejectedBy) := by
  refine ⟨fun i hi h => ?_, Nat.le_succ _, fun _ _ hi _ hne => absurd hi hne⟩
  rw [spawn_worker_of_lt hi]
  exact h

/-! ### An entry is put -/

theorem PoolFrame.put (hne : q ≠ p) (howner : pool.reserver key = some p) :
    PoolFrame pool (pool.put key c) q where
  spawned := Nat.le_refl _
  key _ _ := rfl
  gone _ _ h := h
  rejected _ hi h := ⟨hi, h⟩
  rejects _ _ h := h
  reserved _ hkey hq := ⟨hkey, hq⟩
  entry k _ hq i hi := by
    have hk : k ≠ key := by
      rintro rfl
      rw [howner] at hq
      exact hne (Option.some.inj hq).symm
    rw [entry_put_of_ne hk] at hi
    exact hi

theorem Drops.put (hnone : pool.entry key = none) : Drops pool (pool.put key c) := by
  refine ⟨fun _ _ h => h, Nat.le_refl _, fun k i hi _ hne => ?_⟩
  have hk : k ≠ key := by
    rintro rfl
    rw [hnone] at hi
    cases hi
  rw [entry_put_of_ne hk] at hne
  exact absurd hi hne

/-! ### The end of a rejection -/

theorem settle_worker (i : ℕ) :
    ((pool.settle c).worker i).key = (pool.worker i).key ∧
      ((pool.settle c).worker i).gone = (pool.worker i).gone ∧
      ((pool.settle c).worker i).rejectedBy =
        if i = c then none else (pool.worker i).rejectedBy := by
  by_cases hi : i = c
  · subst hi
    have hself : (pool.settle i).worker i = { pool.worker i with rejectedBy := none } :=
      Function.update_self ..
    rw [hself, if_pos rfl]
    exact ⟨rfl, rfl, rfl⟩
  · have hother : (pool.settle c).worker i = pool.worker i := Function.update_of_ne hi ..
    rw [hother, if_neg hi]
    exact ⟨rfl, rfl, rfl⟩

theorem settle_rejectedBy_of_ne {i : ℕ} (hi : i ≠ c) :
    ((pool.settle c).worker i).rejectedBy = (pool.worker i).rejectedBy := by
  rw [(settle_worker i).2.2, if_neg hi]

theorem settle_rejectedBy_none {i : ℕ} (h : (pool.worker i).rejectedBy = none) :
    ((pool.settle c).worker i).rejectedBy = none := by
  rw [(settle_worker i).2.2, h]
  exact ite_self none

theorem SoundPool.settle (hsound : SoundPool limits pool) (hgone : (pool.worker c).gone = true) :
    SoundPool limits (pool.settle c) where
  entries k i hi := by
    obtain ⟨hlt, hkey, hrejected⟩ := hsound.entries k i hi
    exact ⟨hlt, (settle_worker i).1.trans hkey, settle_rejectedBy_none hrejected⟩
  owned i hi := by
    rw [(settle_worker i).1, (settle_worker i).2.1]
    by_cases hic : i = c
    · subst hic
      exact .inl hgone
    · rw [settle_rejectedBy_of_ne hic]
      exact hsound.owned i hi
  max := hsound.max
  maxPerAgent := hsound.maxPerAgent

/-- **A rejected worker that may live is kept** under its key. -/
theorem SoundPool.settlePut (hsound : SoundPool limits pool) (hreserved : key ∈ pool.reservations)
    (hnone : pool.entry key = none) (hlt : c < pool.spawned) (hkey : (pool.worker c).key = key) :
    SoundPool limits ((pool.settle c).put key c) := by
  obtain ⟨hmax, hagent⟩ := limits_of_subset
    (occupied_put hreserved) hsound.max hsound.maxPerAgent
  refine ⟨fun k i hi => ?_, fun i hi => ?_, hmax, hagent⟩
  · by_cases hk : k = key
    · rw [hk, entry_put_self] at hi
      cases hi
      refine ⟨hlt, ((settle_worker c).1.trans hkey).trans hk.symm, ?_⟩
      show ((pool.settle c).worker c).rejectedBy = none
      rw [(settle_worker c).2.2, if_pos rfl]
    · rw [entry_put_of_ne hk] at hi
      obtain ⟨hlt', hkey', hrejected⟩ := hsound.entries k i hi
      exact ⟨hlt', (settle_worker i).1.trans hkey', settle_rejectedBy_none hrejected⟩
  · show ((pool.settle c).worker i).gone = true ∨
      ((pool.settle c).put key c).entry ((pool.settle c).worker i).key = some i ∨
      ∃ p, ((pool.settle c).worker i).rejectedBy = some p
    rw [(settle_worker i).1, (settle_worker i).2.1]
    by_cases hic : i = c
    · subst hic
      rw [hkey]
      exact .inr (.inl entry_put_self)
    · rw [settle_rejectedBy_of_ne hic]
      refine (hsound.owned i hi).imp_right fun howned => howned.imp_left fun hentry => ?_
      have hne : (pool.worker i).key ≠ key := by
        intro hkey'
        rw [hkey', hnone] at hentry
        cases hentry
      exact (entry_put_of_ne hne).trans hentry

theorem PoolFrame.settle (hne : q ≠ p) (howner : (pool.worker c).rejectedBy = some p) :
    PoolFrame pool (pool.settle c) q where
  spawned := Nat.le_refl _
  key i _ := (settle_worker i).1
  gone i _ h := (settle_worker i).2.1.trans h
  rejected i hi h := by
    refine ⟨hi, ?_⟩
    by_cases hic : i = c
    · subst hic
      rw [(settle_worker i).2.2, if_pos rfl] at h
      cases h
    · rw [settle_rejectedBy_of_ne hic] at h
      exact h
  rejects i _ h := by
    have hic : i ≠ c := by
      rintro rfl
      rw [howner] at h
      exact hne (Option.some.inj h).symm
    rw [settle_rejectedBy_of_ne hic]
    exact h
  reserved _ hkey hq := ⟨hkey, hq⟩
  entry _ _ _ _ hi := hi

theorem Drops.settle : Drops pool (pool.settle c) :=
  ⟨fun i _ h => (settle_worker i).2.1.trans h, Nat.le_refl _, fun _ _ hi _ hne => absurd hi hne⟩

end Small

end GoalFlight.Acp
