import GoalFlight.Acp.PoolChanges

/-!
# ACP: what the calls of the pool keep

What holds at each place of a call, and that each step keeps it where it heeds two things: a
removal by key finds the connection that was killed, and a worker that is returned is one that no
call has begun to kill.  `close`, `cleanup_idle`, `health_check` and `shutdown` remove by key after
an await; `get_or_create` looks at the process only.
-/

namespace GoalFlight.Acp

variable {next : AfterKill} {place : PoolPlace}

/-- The key that a place has reserved. -/
def PoolPlace.reserved? : PoolPlace → Option PoolKey
  | .killing _ _ next => next.reserved?
  | .spawning key _ => some key
  | .rejecting key _ _ => some key
  | .handshaking key _ => some key
  | _ => none

/-- What holds at a place, besides its reservation. -/
def PlaceAt (pool : Pool) (p : ℕ) : PoolPlace → Prop
  | .killing c closing next =>
    c < pool.spawned ∧ (closing = true → (pool.worker c).gone = true) ∧
      ∀ key posture, next = .rebuild key posture → ∀ i, pool.entry key = some i → i = c
  | .spawning key _ => pool.entry key = none
  | .rejecting key c _ =>
    pool.entry key = none ∧ c < pool.spawned ∧ (pool.worker c).key = key ∧
      (pool.worker c).rejectedBy = some p
  | .handshaking _ c => c < pool.spawned
  | _ => True

/-- The workers that a sweep is yet to look at. -/
def AfterKill.left : AfterKill → List (PoolKey × ℕ)
  | .sweep _ _ left => left
  | _ => []

/-- The workers that a place is yet to look at. -/
def PoolPlace.left : PoolPlace → List (PoolKey × ℕ)
  | .killing _ _ next => next.left
  | .pinging left dead => left ++ dead
  | .sweeping _ left => left
  | _ => []

/-- **What holds at each place of a call.** -/
structure PoolAt (pool : Pool) (p : ℕ) (place : PoolPlace) : Prop where
  reserved : ∀ key, place.reserved? = some key →
    key ∈ pool.reservations ∧ pool.reserver key = some p
  rejected : ∀ c, c < pool.spawned → (pool.worker c).rejectedBy = some p →
    ∃ key force, place = .rejecting key c force
  left : ∀ item ∈ place.left, item.2 < pool.spawned
  place : PlaceAt pool p place

theorem PoolAt.frame {pool pool' : Pool} {q : ℕ} (hframe : PoolFrame pool pool' q)
    (h : PoolAt pool q place) : PoolAt pool' q place where
  reserved key hkey := by
    obtain ⟨hmem, howner⟩ := h.reserved key hkey
    exact hframe.reserved key hmem howner
  rejected c hc hq := by
    obtain ⟨hlt, hrejected⟩ := hframe.rejected c hc hq
    exact h.rejected c hlt hrejected
  left item hitem := Nat.lt_of_lt_of_le (h.left item hitem) hframe.spawned
  place := by
    have hentry : ∀ key, place.reserved? = some key → ∀ i, pool'.entry key = some i →
        pool.entry key = some i := by
      intro key hkey
      obtain ⟨hmem, howner⟩ := h.reserved key hkey
      exact hframe.entry key hmem howner
    have hnone : ∀ key, place.reserved? = some key → pool.entry key = none →
        pool'.entry key = none := by
      intro key hkey hbefore
      cases hafter : pool'.entry key with
      | none => rfl
      | some i =>
        rw [hentry key hkey i hafter] at hbefore
        cases hbefore
    match place, h.place with
    | .killing c closing next, hplace =>
      obtain ⟨hlt, hgone, hsame⟩ := hplace
      refine ⟨Nat.lt_of_lt_of_le hlt hframe.spawned, fun hclosing =>
        hframe.gone c hlt (hgone hclosing), ?_⟩
      rintro key posture rfl i hi
      exact hsame key posture rfl i (hentry key rfl i hi)
    | .spawning key _, hplace => exact hnone key rfl hplace
    | .rejecting key c _, hplace =>
      obtain ⟨hentry', hlt, hkey, hrejected⟩ := hplace
      exact ⟨hnone key rfl hentry', Nat.lt_of_lt_of_le hlt hframe.spawned,
        (hframe.key c hlt).trans hkey, hframe.rejects c hlt hrejected⟩
    | .handshaking _ c, hplace => exact Nat.lt_of_lt_of_le hplace hframe.spawned
    | .idle, _ => trivial
    | .pinging _ _, _ => trivial
    | .sweeping _ _, _ => trivial
    | .returned _, _ => trivial
    | .ended, _ => trivial

/-- **What a turn keeps**: the pool is sound, the call is where it should be, the others keep what
they rely on, and no entry of a living worker is dropped. -/
structure PoolMoves (limits : PoolLimits) (pool : Pool) (p : ℕ) (next : Pool × PoolPlace) : Prop
    where
  sound : SoundPool limits next.1
  own : PoolAt next.1 p next.2
  others : ∀ q, q ≠ p → PoolFrame pool next.1 q
  drops : Drops pool next.1

section Turns

variable {limits : PoolLimits} {pool pool' : Pool} {p : ℕ} {a : PoolAnswer} {key : PoolKey} {c : ℕ}
  {posture : Posture}

theorem PoolMoves.stay (hsound : SoundPool limits pool) (hat : PoolAt pool p place) :
    PoolMoves limits pool p (pool, place) :=
  ⟨hsound, hat, fun _ _ => PoolFrame.refl, Drops.refl⟩

theorem PoolMoves.after {next : Pool × PoolPlace} (hothers : ∀ q, q ≠ p → PoolFrame pool pool' q)
    (hdrops : Drops pool pool') (h : PoolMoves limits pool' p next) :
    PoolMoves limits pool p next :=
  ⟨h.sound, h.own, fun q hq => (hothers q hq).trans (h.others q hq), hdrops.trans h.drops⟩

theorem PoolAt.none_rejected (h : PoolAt pool p place)
    (hplace : ∀ key c force, place ≠ .rejecting key c force) :
    ∀ i, i < pool.spawned → (pool.worker i).rejectedBy ≠ some p := by
  intro i hi hrejected
  obtain ⟨key, force, heq⟩ := h.rejected i hi hrejected
  exact hplace key i force heq

theorem poolAt_of_free (hreserved : place.reserved? = none)
    (hrejected : ∀ i, i < pool.spawned → (pool.worker i).rejectedBy ≠ some p)
    (hleft : ∀ item ∈ place.left, item.2 < pool.spawned) (hplace : PlaceAt pool p place) :
    PoolAt pool p place where
  reserved key hkey := by
    rw [hreserved] at hkey
    cases hkey
  rejected i hi h := absurd h (hrejected i hi)
  left := hleft
  place := hplace

theorem poolAt_ended (hrejected : ∀ i, i < pool.spawned → (pool.worker i).rejectedBy ≠ some p) :
    PoolAt pool p .ended := poolAt_of_free rfl hrejected nofun trivial

/-- **A reservation is released** at the end of a call. -/
theorem release_moves (hsound : SoundPool limits pool) (howner : pool.reserver key = some p)
    (hrejected : ∀ i, i < pool.spawned → (pool.worker i).rejectedBy ≠ some p)
    (hreserved : place.reserved? = none) (hleft : place.left = [])
    (hplace : PlaceAt (pool.release key) p place) :
    PoolMoves limits pool p (pool.release key, place) where
  sound := hsound.release
  own := poolAt_of_free hreserved hrejected (by rw [hleft]; exact nofun) hplace
  others q hq := PoolFrame.release hq howner
  drops := Drops.release

theorem begin_moves (hsound : SoundPool limits pool)
    (hat : PoolAt pool p (.killing c false next)) :
    PoolMoves limits pool p (pool.beginKill c, .killing c false next) where
  sound := hsound.update harmless_beginKill
  own := hat.frame (PoolFrame.update harmless_beginKill)
  others _ _ := PoolFrame.update harmless_beginKill
  drops := Drops.update harmless_beginKill

/-- **An entry is removed, where it is still the connection that is gone.** -/
theorem popIf_keeps (hsound : SoundPool limits pool) (hgone : (pool.worker c).gone = true) :
    SoundPool limits (pool.popIf key c) ∧ (∀ q, PoolFrame pool (pool.popIf key c) q) ∧
      Drops pool (pool.popIf key c) := by
  unfold Pool.popIf
  split
  · rename_i hentry
    have hall : ∀ i, pool.entry key = some i → (pool.worker i).gone = true := by
      intro i hi
      rw [hentry] at hi
      cases hi
      exact hgone
    exact ⟨hsound.pop hall, fun _ => PoolFrame.pop, Drops.pop hall⟩
  · exact ⟨hsound, fun _ => PoolFrame.refl, Drops.refl⟩

theorem entry_popIf (hsame : ∀ i, pool.entry key = some i → i = c) :
    (pool.popIf key c).entry key = none := by
  unfold Pool.popIf
  split
  · exact entry_pop_self
  · rename_i hne
    cases hentry : pool.entry key with
    | none => rfl
    | some i =>
      rw [hsame i hentry] at hentry
      exact absurd hentry hne

section

variable (hsound : SoundPool limits pool)
include hsound

/-- **After a kill that was confirmed.** -/
theorem confirmed_moves (hat : PoolAt pool p (.killing c true next))
    (hheeds : ∀ key, (next = .close key ∨ ∃ kind left, next = .sweep kind key left) →
      ∀ i, pool.entry key = some i → i = c) :
    PoolMoves limits pool p (afterKill pool c true next) := by
  have hgone := hat.place.2.1 rfl
  have hrejected := hat.none_rejected nofun
  have hpop : ∀ key, (∀ i, pool.entry key = some i → i = c) →
      ∀ i, pool.entry key = some i → (pool.worker i).gone = true := by
    intro key hsame i hi
    rw [hsame i hi]
    exact hgone
  cases next with
  | rebuild key posture =>
    obtain ⟨hsound', hframe, hdrops⟩ := popIf_keeps hsound hgone
    refine ⟨hsound', ⟨?_, ?_, nofun, ?_⟩, fun q _ => hframe q, hdrops⟩
    · intro k hk
      cases hk
      obtain ⟨hmem, howner⟩ := hat.reserved key rfl
      exact (hframe p).reserved key hmem howner
    · intro i hi hq
      obtain ⟨hlt, hq'⟩ := (hframe p).rejected i hi hq
      exact absurd hq' (hrejected i hlt)
    · exact entry_popIf (hat.place.2.2 key posture rfl)
  | handshake key =>
    obtain ⟨hsound', hframe, hdrops⟩ := popIf_keeps hsound hgone
    obtain ⟨hmem, howner⟩ := hat.reserved key rfl
    refine PoolMoves.after (fun q _ => hframe q) hdrops (release_moves hsound'
      ((hframe p).reserved key hmem howner).2 ?_ rfl rfl trivial)
    intro i hi hq
    obtain ⟨hlt, hq'⟩ := (hframe p).rejected i hi hq
    exact hrejected i hlt hq'
  | close key =>
    have hall := hpop key (hheeds key (.inl rfl))
    exact ⟨hsound.pop hall, poolAt_ended hrejected, fun _ _ => PoolFrame.pop, Drops.pop hall⟩
  | sweep kind key left =>
    have hall := hpop key (hheeds key (.inr ⟨kind, left, rfl⟩))
    exact ⟨hsound.pop hall, poolAt_of_free rfl hrejected hat.left trivial,
      fun _ _ => PoolFrame.pop, Drops.pop hall⟩

/-- **After a kill that was not confirmed**, the entry stays. -/
theorem unconfirmed_moves {closing : Bool} (hat : PoolAt pool p (.killing c closing next)) :
    PoolMoves limits pool p (afterKill pool c false next) := by
  have hrejected := hat.none_rejected nofun
  cases next with
  | rebuild key posture =>
    exact release_moves hsound (hat.reserved key rfl).2 hrejected rfl rfl trivial
  | handshake key =>
    have hframe : ∀ q, PoolFrame pool (pool.markUnusable c) q := fun q =>
      PoolFrame.update harmless_markUnusable
    refine PoolMoves.after (fun q _ => hframe q) (Drops.update harmless_markUnusable)
      (release_moves (hsound.update harmless_markUnusable) (hat.reserved key rfl).2 ?_ rfl rfl
        trivial)
    intro i hi hq
    obtain ⟨hlt, hq'⟩ := (hframe p).rejected i hi hq
    exact hrejected i hlt hq'
  | close key => exact PoolMoves.stay hsound (poolAt_ended hrejected)
  | sweep kind key left =>
    exact PoolMoves.stay hsound (poolAt_of_free rfl hrejected hat.left trivial)

/-- **A turn of a kill.** -/
theorem killTurn_moves {closing : Bool} (hat : PoolAt pool p (.killing c closing next))
    (hheeds : a.cancelled = false → closing = true → ∀ key,
      (next = .close key ∨ ∃ kind left, next = .sweep kind key left) →
        ∀ i, pool.entry key = some i → i = c) :
    PoolMoves limits pool p (killTurn a pool c closing next) := by
  have hrejected := hat.none_rejected nofun
  unfold killTurn
  split
  · unfold abortKill
    split
    · rename_i key hkey
      exact release_moves hsound (hat.reserved key hkey).2 hrejected rfl rfl trivial
    · exact PoolMoves.stay hsound (poolAt_ended hrejected)
  · rename_i hcancelled
    split
    · rename_i hclosing
      subst hclosing
      refine confirmed_moves hsound hat fun key hnext => hheeds ?_ rfl key hnext
      rw [Bool.and_eq_true, not_and] at hcancelled
      cases hc : a.cancelled with
      | false => rfl
      | true =>
        exfalso
        rcases hnext with rfl | ⟨kind, left, rfl⟩
        · exact hcancelled hc rfl
        · exact hcancelled hc rfl
    · split
      · refine ⟨hsound.update harmless_markGone, ?_, fun _ _ => PoolFrame.update harmless_markGone,
          Drops.update harmless_markGone⟩
        have hframe : PoolFrame pool (pool.markGone c) p := PoolFrame.update harmless_markGone
        have hat' := hat.frame hframe
        refine ⟨hat'.reserved, ?_, hat'.left, ?_⟩
        · intro i hi hq
          obtain ⟨key, force, heq⟩ := hat'.rejected i hi hq
          cases heq
        · refine ⟨hat'.place.1, fun _ => ?_, hat'.place.2.2⟩
          show (Function.update pool.worker c { pool.worker c with gone := true } c).gone = true
          rw [Function.update_self]
      · exact unconfirmed_moves hsound hat

/-- **A turn of a spawn.** -/
theorem spawnTurn_moves (hat : PoolAt pool p (.spawning key posture)) :
    PoolMoves limits pool p (spawnTurn a p pool key posture) := by
  have hrejected := hat.none_rejected nofun
  obtain ⟨hmem, howner⟩ := hat.reserved key rfl
  have hnone : pool.entry key = none := hat.place
  unfold spawnTurn
  split
  · exact release_moves hsound howner hrejected rfl rfl trivial
  · split
    · exact release_moves hsound howner hrejected rfl rfl trivial
    · rename_i force _
      refine ⟨hsound.spawnRejected, ⟨?_, ?_, nofun, ?_⟩, fun q hq => PoolFrame.spawn ?_, Drops.spawn⟩
      · intro k hk
        cases hk
        exact ⟨hmem, howner⟩
      · intro i hi hq
        rcases Nat.lt_succ_iff_lt_or_eq.mp hi with hlt | rfl
        · have hq' : (pool.worker i).rejectedBy = some p := by
            rw [← spawn_worker_of_lt hlt]
            exact hq
          exact absurd hq' (hrejected i hlt)
        · exact ⟨key, force, rfl⟩
      · refine ⟨hnone, Nat.lt_succ_self _, ?_, ?_⟩
        · exact congrArg Worker.key spawn_worker_self
        · exact congrArg Worker.rejectedBy spawn_worker_self
      · exact fun heq => hq (Option.some.inj heq).symm
    · have hframe : ∀ q, PoolFrame pool (pool.spawn key posture true none) q := fun q =>
        PoolFrame.spawn nofun
      refine ⟨hsound.spawnPut hmem hnone, ⟨?_, ?_, nofun, Nat.lt_succ_self _⟩, fun q hq =>
        (hframe q).trans (PoolFrame.put hq howner), Drops.spawn.trans (Drops.put hnone)⟩
      · intro k hk
        cases hk
        exact ⟨hmem, howner⟩
      · intro i hi hq
        obtain ⟨hlt, hq'⟩ := (hframe p).rejected i hi hq
        exact absurd hq' (hrejected i hlt)

/-- **A turn of a rejection**: the worker is gone, or it is kept. -/
theorem rejectTurn_moves {force : Bool} (hat : PoolAt pool p (.rejecting key c force)) :
    PoolMoves limits pool p (rejectTurn a pool key c force) := by
  obtain ⟨hmem, howner⟩ := hat.reserved key rfl
  obtain ⟨hnone, hlt, hkey, hmine⟩ := hat.place
  have hsettled : ∀ {pool' : Pool}, PoolAt pool' p (.rejecting key c force) →
      ∀ i, i < pool'.spawned → ((pool'.settle c).worker i).rejectedBy ≠ some p := by
    intro pool' hat' i hi hq
    by_cases hic : i = c
    · rw [(settle_worker i).2.2, if_pos hic] at hq
      cases hq
    · rw [settle_rejectedBy_of_ne hic] at hq
      obtain ⟨_, _, heq⟩ := hat'.rejected i hi hq
      cases heq
      exact hic rfl
  unfold rejectTurn
  split
  · refine PoolMoves.after (fun q hq => ?_)
      (Drops.settle.trans (Drops.put hnone))
      (release_moves (hsound.settlePut hmem hnone hlt hkey) howner (hsettled hat) rfl rfl trivial)
    exact (PoolFrame.settle hq hmine).trans (PoolFrame.put hq howner)
  · have hframe : ∀ q, PoolFrame pool (pool.markGone c) q := fun q =>
      PoolFrame.update harmless_markGone
    have hgone : ((pool.markGone c).worker c).gone = true := by
      show (Function.update pool.worker c { pool.worker c with gone := true } c).gone = true
      rw [Function.update_self]
    have hat' := hat.frame (hframe p)
    refine PoolMoves.after (fun q hq => ?_)
      ((Drops.update harmless_markGone).trans Drops.settle)
      (release_moves ((hsound.update harmless_markGone).settle hgone) howner (hsettled hat') rfl rfl
        trivial)
    exact (hframe q).trans (PoolFrame.settle hq hat'.place.2.2.2)

theorem kill_moves (hrejected : ∀ i, i < pool.spawned → (pool.worker i).rejectedBy ≠ some p)
    (hlt : c < pool.spawned) (hnext : next.reserved? = none)
    (hleft : ∀ item ∈ next.left, item.2 < pool.spawned) :
    PoolMoves limits pool p (pool.beginKill c, .killing c false next) := by
  refine begin_moves hsound (poolAt_of_free hnext hrejected hleft ⟨hlt, nofun, ?_⟩)
  rintro key posture rfl
  cases hnext

/-- **The next key of a sweep.** -/
theorem sweepTurn_moves {kind : Sweep} {left : List (PoolKey × ℕ)}
    (hat : PoolAt pool p (.sweeping kind left)) :
    PoolMoves limits pool p (sweepTurn pool kind left) := by
  have hrejected := hat.none_rejected nofun
  cases left with
  | nil => exact PoolMoves.stay hsound (poolAt_ended hrejected)
  | cons item left =>
    have hleft : ∀ item ∈ left, item.2 < pool.spawned := fun i hi =>
      hat.left i (List.mem_cons_of_mem item hi)
    have hhead : item.2 < pool.spawned := hat.left item List.mem_cons_self
    unfold sweepTurn
    dsimp only
    split
    · exact kill_moves hsound hrejected hhead rfl hleft
    · rename_i found _ hfound
      exact kill_moves hsound hrejected (hsound.entries _ found hfound).1 rfl hleft
    · exact PoolMoves.stay hsound (poolAt_of_free rfl hrejected hleft trivial)
    · exact PoolMoves.stay hsound (poolAt_ended hrejected)

end

end Turns

/-! ### Steps -/

/-- The key of a removal after a kill. -/
def AfterKill.pops? : AfterKill → Option PoolKey
  | .close key => some key
  | .sweep _ key _ => some key
  | _ => none

/-- What a turn has to heed. -/
def turnHeeds (pool : Pool) (a : PoolAnswer) : PoolPlace → Bool
  | .handshaking _ c => !a.ok || a.cancelled || !(pool.worker c).killed
  | .killing c true next =>
    a.cancelled || next.pops?.all fun key => (pool.entry key).all fun i => i = c
  | _ => true

/-- **What a step has to heed.**  The worker that `get_or_create` reuses, or whose handshake
succeeds, is one that no call has begun to kill; and a removal by key after a kill finds the
connection that was killed, or none. -/
def poolHeeds (s : PoolState) : PoolAction → Bool
  | .getOrCreate _ key posture =>
    key ∈ s.shared.reservations || (s.shared.entry key).all fun c =>
      !s.shared.canReuse c posture || !(s.shared.worker c).killed
  | .turn p a => turnHeeds s.shared a (s.place p)
  | _ => true

/-- What holds between the steps. -/
abbrev SoundCalls (limits : PoolLimits) : PoolState → Prop :=
  Threads.Holds (SoundPool limits) PoolAt

section Steps

variable {limits : PoolLimits} {s : PoolState} {p : ℕ}

theorem soundCalls_start : SoundCalls limits PoolState.start where
  inv := ⟨nofun, nofun, Nat.zero_le _, fun _ => Nat.zero_le _⟩
  ok _ := ⟨nofun, nofun, nofun, trivial⟩

/-- **A turn** keeps what holds at each place. -/
theorem poolTurn_moves {a : PoolAnswer} (h : SoundCalls limits s)
    (hheeds : poolHeeds s (.turn p a) = true) :
    PoolMoves limits s.shared p (poolTurn a p s.shared (s.place p)) := by
  have hat := h.ok p
  rw [poolHeeds] at hheeds
  cases hplace : s.place p with
  | idle =>
    rw [hplace] at hat
    exact PoolMoves.stay h.inv hat
  | killing c closing next =>
    rw [hplace] at hat hheeds
    refine killTurn_moves h.inv hat ?_
    rintro hcancelled rfl key hnext i hi
    have hpops : next.pops? = some key := by
      rcases hnext with rfl | ⟨kind, left, rfl⟩ <;> rfl
    simpa [turnHeeds, hcancelled, hpops, hi] using hheeds
  | spawning key posture =>
    rw [hplace] at hat
    exact spawnTurn_moves h.inv hat
  | rejecting key c force =>
    rw [hplace] at hat
    exact rejectTurn_moves h.inv hat
  | handshaking key c =>
    rw [hplace] at hat
    have hrejected := hat.none_rejected nofun
    unfold poolTurn
    dsimp only
    split
    · exact release_moves h.inv (hat.reserved key rfl).2 hrejected rfl rfl trivial
    · refine begin_moves h.inv ⟨hat.reserved, fun i hi hq => absurd hq (hrejected i hi), nofun,
        ⟨hat.place, nofun, nofun⟩⟩
  | pinging left dead =>
    rw [hplace] at hat
    have hrejected := hat.none_rejected nofun
    cases left with
    | nil =>
      refine PoolMoves.stay h.inv (poolAt_of_free rfl hrejected (fun item hitem => ?_) trivial)
      exact hat.left item (List.mem_reverse.mp hitem)
    | cons item left =>
      have hmem : ∀ i, i ∈ left ∨ i ∈ dead ∨ i = item → i ∈ (item :: left) ++ dead := by
        intro i hi
        rw [List.cons_append, List.mem_cons, List.mem_append]
        tauto
      unfold poolTurn
      dsimp only
      split
      · refine PoolMoves.stay h.inv (poolAt_of_free rfl hrejected (fun i hi => ?_) trivial)
        rcases List.mem_append.mp hi with hi | hi
        · exact hat.left i (hmem i (.inl hi))
        · rcases List.mem_cons.mp hi with rfl | hi
          · exact hat.left _ (hmem _ (.inr (.inr rfl)))
          · exact hat.left i (hmem i (.inr (.inl hi)))
      · split
        · exact PoolMoves.stay h.inv (poolAt_ended hrejected)
        · refine PoolMoves.stay h.inv (poolAt_of_free rfl hrejected (fun i hi => ?_) trivial)
          rcases List.mem_append.mp hi with hi | hi
          · exact hat.left i (hmem i (.inl hi))
          · split at hi
            · exact hat.left i (hmem i (.inr (.inl hi)))
            · rcases List.mem_cons.mp hi with rfl | hi
              · exact hat.left _ (hmem _ (.inr (.inr rfl)))
              · exact hat.left i (hmem i (.inr (.inl hi)))
  | sweeping kind left =>
    rw [hplace] at hat
    exact sweepTurn_moves h.inv hat
  | returned c =>
    rw [hplace] at hat
    exact PoolMoves.stay h.inv hat
  | ended =>
    rw [hplace] at hat
    exact PoolMoves.stay h.inv hat

theorem items_spawned (h : SoundPool limits s.shared) :
    ∀ item ∈ s.shared.items, item.2 < s.shared.spawned := by
  rintro ⟨key, c⟩ hitem
  obtain ⟨⟨key', c'⟩, hmem, heq⟩ := List.mem_map.mp (List.mem_reverse.mp hitem)
  cases heq
  refine (h.entries key' c' ?_).1
  exact (List.mem_dlookup_iff s.shared.connections.nodupKeys).mpr hmem

/-- **`get_or_create`, up to its first await.** -/
theorem admission_moves {key : PoolKey} {posture : Posture} (hsound : SoundPool limits s.shared)
    (hrejected : ∀ i, i < s.shared.spawned → (s.shared.worker i).rejectedBy ≠ some p) :
    PoolMoves limits s.shared p (admission p s.shared limits key posture) := by
  have hreserved : ∀ k, some key = some k → k ∈ (s.shared.reserve p key).reservations ∧
      (s.shared.reserve p key).reserver k = some p := by
    intro k hk
    cases hk
    exact ⟨Finset.mem_insert_self .., Function.update_self ..⟩
  unfold admission
  split
  · exact PoolMoves.stay hsound (poolAt_ended hrejected)
  · rename_i hfree
    split
    · rename_i c hentry
      split
      · exact PoolMoves.stay hsound (poolAt_of_free rfl hrejected nofun trivial)
      · refine PoolMoves.after (fun q _ => PoolFrame.reserve hfree) Drops.reserve
          (begin_moves (hsound.reserve (.inl (mem_keys_of_entry hentry)))
            ⟨hreserved, fun i hi hq => absurd hq (hrejected i hi), nofun,
              (hsound.entries key c hentry).1, nofun, ?_⟩)
        intro k posture' hnext i hi
        cases hnext
        rw [show s.shared.entry key = some i from hi] at hentry
        exact Option.some.inj hentry
    · rename_i hentry
      split
      · exact PoolMoves.stay hsound (poolAt_ended hrejected)
      · rename_i hmax
        split
        · exact PoolMoves.stay hsound (poolAt_ended hrejected)
        · rename_i hagent
          refine ⟨hsound.reserve (.inr ⟨Nat.lt_of_not_le hmax, Nat.lt_of_not_le hagent⟩),
            ⟨hreserved, fun i hi hq => absurd hq (hrejected i hi), nofun, hentry⟩,
            fun q _ => PoolFrame.reserve hfree, Drops.reserve⟩

theorem PoolMoves.keeps {next : Pool × PoolPlace} (h : SoundCalls limits s)
    (hmoves : PoolMoves limits s.shared p next) :
    SoundCalls limits (s.turn p next) ∧ Drops s.shared (s.turn p next).shared :=
  ⟨h.turn hmoves.sound hmoves.own fun q hq hat => hat.frame (hmoves.others q hq), hmoves.drops⟩

theorem beginCall_keeps {next : Pool × PoolPlace} (h : SoundCalls limits s)
    (hmoves : (∀ i, i < s.shared.spawned → (s.shared.worker i).rejectedBy ≠ some p) →
      PoolMoves limits s.shared p next) :
    SoundCalls limits (beginCall s p next) ∧ Drops s.shared (beginCall s p next).shared := by
  unfold beginCall
  split
  · rename_i hplace
    have hat := h.ok p
    rw [hplace] at hat
    exact (hmoves (hat.none_rejected nofun)).keeps h
  · exact ⟨h, Drops.refl⟩

theorem environment_moves {pool' : Pool} (h : SoundCalls limits s) (hsound : SoundPool limits pool')
    (hframe : ∀ q, PoolFrame s.shared pool' q) (hdrops : Drops s.shared pool') :
    SoundCalls limits (s.environment pool') ∧ Drops s.shared (s.environment pool').shared :=
  ⟨h.environment hsound fun q _ hat => hat.frame (hframe q), hdrops⟩

/-- **A step** keeps what holds at each place, and drops no entry of a living worker. -/
theorem poolStep_keeps (action : PoolAction) (h : SoundCalls limits s)
    (hheeds : poolHeeds s action = true) :
    SoundCalls limits (poolStep limits s action) ∧
      Drops s.shared (poolStep limits s action).shared := by
  cases action with
  | getOrCreate p key posture => exact beginCall_keeps h fun hrejected => admission_moves h.inv hrejected
  | close p key =>
    refine beginCall_keeps h fun hrejected => ?_
    unfold beginClose
    split
    · rename_i c hentry
      exact kill_moves h.inv hrejected (h.inv.entries key c hentry).1 rfl nofun
    · exact PoolMoves.stay h.inv (poolAt_ended hrejected)
  | remove key confirmed =>
    unfold poolStep
    dsimp only
    unfold removeEntry
    split
    · rename_i c hentry
      split
      · have hgone : ∀ i, (s.shared.markGone c).entry key = some i →
            ((s.shared.markGone c).worker i).gone = true := by
          intro i hi
          rw [show s.shared.entry key = some i from hi] at hentry
          cases hentry
          show (Function.update s.shared.worker c { s.shared.worker c with gone := true } c).gone =
            true
          rw [Function.update_self]
        exact environment_moves h ((h.inv.update harmless_markGone).pop hgone)
          (fun q => (PoolFrame.update harmless_markGone).trans PoolFrame.pop)
          ((Drops.update harmless_markGone).trans (Drops.pop hgone))
      · exact environment_moves h h.inv (fun _ => PoolFrame.refl) Drops.refl
    · exact environment_moves h h.inv (fun _ => PoolFrame.refl) Drops.refl
  | cleanupIdle p stale =>
    refine beginCall_keeps h fun hrejected => PoolMoves.stay h.inv (poolAt_of_free rfl hrejected
      (fun item hitem => ?_) trivial)
    exact items_spawned h.inv item (List.mem_of_mem_filter hitem)
  | healthCheck p =>
    refine beginCall_keeps h fun hrejected => PoolMoves.stay h.inv (poolAt_of_free rfl hrejected
      (fun item hitem => ?_) trivial)
    exact items_spawned h.inv item (by simpa [PoolPlace.left] using hitem)
  | shutdown p =>
    exact beginCall_keeps h fun hrejected => PoolMoves.stay h.inv (poolAt_of_free rfl hrejected
      (items_spawned h.inv) trivial)
  | exit c =>
    exact environment_moves h (h.inv.update harmless_exited)
      (fun _ => PoolFrame.update harmless_exited) (Drops.update harmless_exited)
  | turn p a => exact (poolTurn_moves h hheeds).keeps h

end Steps

end GoalFlight.Acp
