import GoalFlight.Journal.Claim
import GoalFlight.Journal.Fence

/-!
# A sweep with stale evidence

`expire_stale_leases` reads the `ACTIVE` leases and probes their holders before its transaction
opens.  Its update compares the generation, the nonce and `renewed_at` with what was read, so a
renewal in between protects its lease exactly when it moves `renewed_at`.

`claim_or_renew_lease` moves it, also twice within one tick of the clock; `renew_active_lease`
writes `renew_deadline_at` only.  `renewed_lease_survives` says what follows.
-/

namespace GoalFlight

open Relational

variable {label : Label} {j j' : Journal} {endedAt : Timestamp} {c : LeaseClaim}
  {d : ProvenDead} {l r : ControllerLease} {v : Option ControllerLease}

variable {nonce : String} {op : JournalOp} {now : Timestamp}
  {itemId : ControllerLease → String} {probe : ControllerLease → Option Bool}

/-! ### The time of a renewal -/

/-- Instants of UTC with their text forms, as Python's `datetime` has them.  The last
instant has no next one (`OverflowError`); reading back what `isoformat` wrote gives the
instant, and `_parse_utc` reads anything else as it likes. -/
structure UtcClock (T : Type) [LinearOrder T] where
  isoformat : T → Timestamp
  parseUtc : Timestamp → Option T
  nextMicrosecond : T → Option T
  parseUtc_isoformat : ∀ t, parseUtc (isoformat t) = some t
  lt_nextMicrosecond : ∀ {t u}, nextMicrosecond t = some u → t < u

namespace UtcClock

variable {T : Type} [LinearOrder T] (clock : UtcClock T)

/-- `_next_lease_renewed_at`, with `current` the reading of the clock. -/
def nextLeaseRenewedAt (current : T) (previous : Timestamp) : Option Timestamp :=
  match clock.parseUtc previous with
  | none => some (clock.isoformat current)
  | some parsed =>
    if current ≤ parsed then (clock.nextMicrosecond parsed).map clock.isoformat
    else some (clock.isoformat current)

/-- The second text is an instant, and one after the first where that is one too. -/
def Later (before after : Timestamp) : Prop :=
  ∃ t, clock.parseUtc after = some t ∧ ∀ u, clock.parseUtc before = some u → u < t

variable {clock}

theorem Later.ne {before after : Timestamp} (h : clock.Later before after) :
    after ≠ before := by
  rintro rfl
  obtain ⟨t, ht, hlt⟩ := h
  exact lt_irrefl t (hlt t ht)

theorem Later.trans {a b c : Timestamp} (h₁ : clock.Later a b) (h₂ : clock.Later b c) :
    clock.Later a c := by
  obtain ⟨t, ht, htu⟩ := h₁
  obtain ⟨u, hu, huv⟩ := h₂
  exact ⟨u, hu, fun v hv => (htu v hv).trans (huv t ht)⟩

theorem later_nextLeaseRenewedAt {current : T} {previous renewedAt : Timestamp}
    (h : clock.nextLeaseRenewedAt current previous = some renewedAt) :
    clock.Later previous renewedAt := by
  unfold nextLeaseRenewedAt at h
  split at h
  · rename_i hparse
    cases h
    refine ⟨current, clock.parseUtc_isoformat current, fun u hu => ?_⟩
    rw [hparse] at hu
    cases hu
  · rename_i parsed hparse
    have hbefore : ∀ u, clock.parseUtc previous = some u → u = parsed := fun u hu =>
      Option.some.inj (hu.symm.trans hparse)
    split at h
    · obtain ⟨next, hnext, rfl⟩ := Option.map_eq_some_iff.mp h
      refine ⟨next, clock.parseUtc_isoformat next, fun u hu => ?_⟩
      rw [hbefore u hu]
      exact clock.lt_nextMicrosecond hnext
    · rename_i hgt
      cases h
      refine ⟨current, clock.parseUtc_isoformat current, fun u hu => ?_⟩
      rw [hbefore u hu]
      exact not_le.mp hgt

end UtcClock

/-! ### Steps of the other writers -/

section Steps

variable {T : Type} [LinearOrder T] (clock : UtcClock T)

/-- A claim with the `renewed_at` its transaction draws, which it does for a renewal by
the incumbent's own principal. -/
def LeaseClaim.drawn (c : LeaseClaim) (j : Journal) (current : T) : Option LeaseClaim :=
  match j.activeLease c.label with
  | none => some c
  | some l =>
    if l.principal.matches c.principal then
      (clock.nextLeaseRenewedAt current l.renewedAt).map fun s => { c with renewedAt := s }
    else some c

/-- A transaction with the values it draws. -/
def JournalOp.drawn (op : JournalOp) (j : Journal) (current : T) : Option JournalOp :=
  match op with
  | .claimOrRenewLease c => (c.drawn clock j current).map .claimOrRenewLease
  | op => some op

/-- A step of one of the writers, at a reading of the clock. -/
def Journal.stepAt (j : Journal) (a : T × JournalOp) : Journal :=
  match a.2.drawn clock j a.1 with
  | none => j
  | some op => j.step op

/-- The two ways to renew a lease. -/
inductive Renewal
  | claimOrRenewLease
  | renewActiveLease
deriving DecidableEq

/-- The lease a committing transaction renews, if it renews one. -/
def JournalOp.renews (op : JournalOp) (j : Journal) : Option (Renewal × Label × ℕ) :=
  match op with
  | .claimOrRenewLease c =>
    match j.activeLease c.label, j.claimOrRenewLease c with
    | some l, .ok _ =>
      if l.principal.matches c.principal then
        some (.claimOrRenewLease, l.label, l.generation)
      else none
    | _, _ => none
  | .renewActiveLease label nonce generation deadline =>
    match j.renewActiveLease label nonce generation deadline with
    | .ok (l, _) => some (.renewActiveLease, l.label, l.generation)
    | .error _ => none
  | _ => none

/-- The lease a step renews, if it renews one. -/
def Journal.renewedAtStep (j : Journal) (a : T × JournalOp) : Option (Renewal × Label × ℕ) :=
  (a.2.drawn clock j a.1).bind fun op => op.renews j

/-- Some step renews the generation of the label in the given way. -/
def Journal.Renewed (j : Journal) (between : List (T × JournalOp)) (way : Renewal)
    (label : Label) (generation : ℕ) : Prop :=
  Machine.Occurs (Journal.stepAt clock)
    (fun j a => j.renewedAtStep clock a = some (way, label, generation)) j between

instance (j : Journal) (between : List (T × JournalOp)) (way : Renewal) (label : Label)
    (generation : ℕ) : Decidable (j.Renewed clock between way label generation) := by
  unfold Journal.Renewed
  infer_instance

end Steps

/-! ### The sweep -/

/-- `ORDER BY label, generation`. -/
def ControllerLease.ListedBefore (a b : ControllerLease) : Prop :=
  a.label < b.label ∨ a.label = b.label ∧ a.generation ≤ b.generation

instance : DecidableRel ControllerLease.ListedBefore := fun a b => by
  unfold ControllerLease.ListedBefore
  infer_instance

/-- `lease_records`: the `ACTIVE` rows. -/
def Journal.leaseRecords (j : Journal) : List ControllerLease :=
  (j.leases.rows.filter fun l => l.Active).insertionSort ControllerLease.ListedBefore

/-- What `expire_stale_leases` holds to be dead before its transaction opens.  `probe` is
`lease_holder_alive`, which gives nothing when it fails or cannot tell, and `itemId` the
UUID the expiry draws if it opens an attention item. -/
def Journal.provenDead (j : Journal) (probe : ControllerLease → Option Bool)
    (itemId : ControllerLease → String) : List ProvenDead :=
  (j.leaseRecords.filter fun l => probe l = some false).map fun l =>
    ⟨l.label, l.generation, l.nonce, l.renewedAt, itemId l⟩

theorem Journal.mem_provenDead (h : d ∈ j.provenDead probe itemId) :
    ∃ l ∈ j.leases, l.Active ∧ d.label = l.label ∧ d.generation = l.generation ∧
      d.nonce = l.nonce ∧ d.renewedAt = l.renewedAt := by
  obtain ⟨l, hl, rfl⟩ := List.mem_map.mp h
  have hrecord := (List.mem_insertionSort _).mp (List.mem_filter.mp hl).1
  obtain ⟨hmem, hactive⟩ := List.mem_filter.mp hrecord
  exact ⟨l, hmem, by simpa using hactive, rfl, rfl, rfl, rfl⟩

/-! ### Rows that keep their time of renewal -/

/-- The two rows are of one generation and carry the same nonce. -/
structure ControllerLease.SameGeneration (l l' : ControllerLease) : Prop where
  label : l.label = l'.label
  generation : l.generation = l'.generation
  nonce : l.nonce = l'.nonce

/-- Leases advance, and the row of a generation that was there before has moved its
`renewed_at` by `R`. -/
structure RenewalsMove (R : ControllerLease → ControllerLease → Prop) (j j' : Journal) :
    Prop where
  advance : LeasesAdvance j j'
  row : ∀ l' ∈ j'.leases, (∃ l ∈ j.leases, l.SameGeneration l' ∧ R l l') ∨
    ∀ l ∈ j.leases, l.label = l'.label → l.generation < l'.generation

theorem RenewalsMove.mono {R S : ControllerLease → ControllerLease → Prop}
    (h : RenewalsMove R j j') (hRS : ∀ l l', R l l' → S l l') : RenewalsMove S j j' where
  advance := h.advance
  row l' hl' := (h.row l' hl').imp_left fun ⟨l, hl, hsame, hmove⟩ =>
    ⟨l, hl, hsame, hRS l l' hmove⟩

/-- `renewed_at` is the same. -/
def ControllerLease.NotRenewed (l l' : ControllerLease) : Prop := l'.renewedAt = l.renewedAt

/-- No lease that was there before is renewed, as far as `renewed_at` tells. -/
abbrev KeepsRenewals : Journal → Journal → Prop := RenewalsMove ControllerLease.NotRenewed

namespace KeepsRenewals

theorem of_eq (h : j'.leases = j.leases) : KeepsRenewals j j' where
  advance := .of_eq h
  row l' hl' := .inl ⟨l', by rwa [h] at hl', ⟨rfl, rfl, rfl⟩, rfl⟩

theorem refl (j : Journal) : KeepsRenewals j j := of_eq rfl

theorem trans {j₁ j₂ j₃ : Journal} (h₁ : KeepsRenewals j₁ j₂) (h₂ : KeepsRenewals j₂ j₃) :
    KeepsRenewals j₁ j₃ where
  advance := h₁.advance.trans h₂.advance
  row n hn := by
    rcases h₂.row n hn with ⟨m, hm, hmn, hrenewed⟩ | hnew
    · rcases h₁.row m hm with ⟨l, hl, hlm, hrenewed'⟩ | hnew
      · refine .inl ⟨l, hl, ⟨hlm.label.trans hmn.label, hlm.generation.trans hmn.generation,
          hlm.nonce.trans hmn.nonce⟩, Eq.trans hrenewed hrenewed'⟩
      · refine .inr fun l hl hlabel => ?_
        exact hmn.generation ▸ hnew l hl (hlabel.trans hmn.label.symm)
    · refine .inr fun l hl hlabel => ?_
      obtain ⟨m, hm, hml, hgeneration, -⟩ := h₁.advance.kept l hl
      exact hgeneration ▸ hnew m hm (hml.trans hlabel)

theorem end_generation {generation : ℕ} {e : LeaseEnd}
    (hl : j'.leases = j.leases.endActive label generation e) : KeepsRenewals j j' where
  advance := .end_generation hl
  row l' hl' := by
    rw [hl] at hl'
    obtain ⟨m, hm, rfl⟩ := Table.exists_of_mem hl' rfl
    refine .inl ⟨m, hm, ?_⟩
    split <;> exact ⟨⟨rfl, rfl, rfl⟩, rfl⟩

theorem insert (hadvance : LeasesAdvance j j') (hl : j.leases.insert? l = some j'.leases)
    (hnew : ∀ m ∈ j.leases, m.label = l.label → m.generation < l.generation) :
    KeepsRenewals j j' where
  advance := hadvance
  row l' hl' := by
    rcases (Table.mem_of_insert? hl).mp hl' with hold | rfl
    · exact .inl ⟨l', hold, ⟨rfl, rfl, rfl⟩, rfl⟩
    · exact .inr hnew

end KeepsRenewals

/-- What a committed expiry does to the leases: the one the evidence still describes ends,
and nothing happens when there is none. -/
theorem expireActiveLease_leases (h : j.expireActiveLease d endedAt = .ok (v, j')) :
    j.provenDeadLease d = none ∧ j'.leases = j.leases ∨
      ∃ l, j.provenDeadLease d = some l ∧ j'.leases =
        j.leases.endActive d.label d.generation ⟨.expired, endedAt, "holder-dead"⟩ := by
  unfold Journal.expireActiveLease at h
  split at h
  · rename_i hnone
    cases h
    exact .inl ⟨hnone, rfl⟩
  · rename_i l hsome
    obtain ⟨u, i, hattention, h⟩ := Tx.andThen_eq_ok.mp h
    cases h
    exact .inr ⟨l, hsome, (materializeAttention_write hattention).leaseFrame.leases⟩

theorem expiryRules_keepsRenewals : ExpiryRules (fun _ => True) KeepsRenewals where
  refl := .refl
  trans := .trans
  keeps _ h := h
  attention _ h := .of_eq (materializeAttention_write h).leaseFrame.leases
  ended _ _ _ _ _ := .end_generation rfl

theorem renewActiveLease_keepsRenewals {generation : ℕ} {deadline : Timestamp}
    {v : ControllerLease}
    (h : j.renewActiveLease label nonce generation deadline = .ok (v, j')) :
    KeepsRenewals j j' := by
  have hadvance := (leaseRules_keeps.renewActiveLease h).2
  unfold Journal.renewActiveLease at h
  split at h
  · cases h
  · cases h
    refine ⟨hadvance, fun l' hl' => ?_⟩
    obtain ⟨m, hm, rfl⟩ := Table.exists_of_mem hl' rfl
    refine .inl ⟨m, hm, ?_⟩
    split <;> exact ⟨⟨rfl, rfl, rfl⟩, rfl⟩

theorem newGeneration_keepsRenewals {replacedNonce : Option String} {v : ControllerLease}
    (h : j.newGeneration c replacedNonce = .ok (v, j')) : KeepsRenewals j j' := by
  have hadvance := (newGeneration_keeps h).2
  unfold Journal.newGeneration at h
  simp only at h
  split at h
  · cases h
  rename_i leases hinsert
  cases h
  refine .insert hadvance hinsert fun m hm hlabel => ?_
  have hle := LeaseTable.generation_le_maxGeneration hm
  rw [hlabel] at hle
  exact Nat.lt_succ_of_le hle

/-- What a committed claim does to the leases: it renews the incumbent of its own
principal, or leaves every time of renewal alone. -/
theorem claimOrRenewLease_leases {v : ControllerLease}
    (h : j.claimOrRenewLease c = .ok (v, j')) :
    (∃ l, j.activeLease c.label = some l ∧ l.principal.matches c.principal = true ∧
        j'.leases = (j.renewIncumbent c l).2.leases) ∨
      (∀ l, j.activeLease c.label = some l → l.principal.matches c.principal = false) ∧
        KeepsRenewals j j' := by
  unfold Journal.claimOrRenewLease at h
  split at h
  · cases h
  split at h
  · cases h
  have hcollapse := (collapseOpenAttention_write j c.label c.now).leaseFrame.leases
  have hactive : (j.collapseOpenAttention c.label c.now).activeLease c.label =
      j.activeLease c.label := rfl
  simp only [hactive] at h
  cases hlease : j.activeLease c.label with
  | none =>
    simp only [hlease] at h
    exact .inr ⟨fun l hl => (Option.some_ne_none l hl.symm).elim,
      (KeepsRenewals.of_eq hcollapse).trans (newGeneration_keepsRenewals h)⟩
  | some l =>
    simp only [hlease] at h
    split at h
    · rename_i hmatches
      cases h
      exact .inl ⟨l, rfl, hmatches, rfl⟩
    · rename_i hother
      obtain ⟨u, i, hreplace, h⟩ := Tx.andThen_eq_ok.mp h
      refine .inr ⟨fun m hm => ?_, ?_⟩
      · cases hm
        exact Bool.eq_false_iff.mpr hother
      · exact (KeepsRenewals.of_eq hcollapse).trans
          ((expiryRules_keepsRenewals.replaceIncumbent trivial hreplace).trans (newGeneration_keepsRenewals h))

theorem releaseLease_keepsRenewals {reason : String} {v : ControllerLease}
    (h : j.releaseLease label nonce reason now = .ok (v, j')) :
    KeepsRenewals j j' := by
  obtain ⟨l, n, i, cursors, -, hrehome, -, rfl⟩ := releaseLease_eq_ok h
  obtain ⟨_, -, moved, -, rfl⟩ := Journal.rehomeRetiredDeliveryEvents_eq_ok hrehome
  exact .end_generation rfl

theorem armListener_leases {pid : ℕ} {startToken : String} {parentPid : ℕ}
    {coverageId : String} {v : ListenerCoverage}
    (h : j.armListener label nonce pid startToken parentPid coverageId now = .ok (v, j')) :
    j'.leases = j.leases := by
  unfold Journal.armListener at h
  split at h
  · cases h
  split at h
  · cases h
  split at h
  · cases h
  simp only at h
  split at h
  · cases h
  · cases h
    rfl

theorem exitListener_leases {coverageId reason itemId : String} {v : ListenerCoverage}
    (h : j.exitListener coverageId reason itemId now = .ok (v, j')) :
    j'.leases = j.leases := by
  unfold Journal.exitListener at h
  split at h
  · cases h
  split at h
  · cases h
  split at h
  · cases h
    rfl
  · obtain ⟨u, i, hattention, h⟩ := Tx.andThen_eq_ok.mp h
    cases h
    split at hattention
    · exact (materializeAttention_write hattention).leaseFrame.leases
    · cases hattention
      rfl

/-- **Step.**  Every transaction but a claim leaves the times of renewal alone. -/
theorem JournalOp.keepsRenewals (h : op.run j = .ok j')
    (hclaim : ∀ c, op ≠ .claimOrRenewLease c) : KeepsRenewals j j' := by
  cases op with
  | expireStaleLeases provenDead endedAt =>
    obtain ⟨v, hv⟩ := Tx.committed_eq_ok.mp h
    exact expiryRules_keepsRenewals.expireStaleLeases trivial hv
  | renewActiveLease label nonce generation deadline =>
    obtain ⟨v, hv⟩ := Tx.committed_eq_ok.mp h
    exact renewActiveLease_keepsRenewals hv
  | claimOrRenewLease c => exact absurd rfl (hclaim c)
  | releaseLease label nonce reason now =>
    obtain ⟨v, hv⟩ := Tx.committed_eq_ok.mp h
    exact releaseLease_keepsRenewals hv
  | armListener label nonce pid startToken parentPid coverageId now =>
    obtain ⟨v, hv⟩ := Tx.committed_eq_ok.mp h
    exact .of_eq (armListener_leases hv)
  | exitListener coverageId reason itemId now =>
    obtain ⟨v, hv⟩ := Tx.committed_eq_ok.mp h
    exact .of_eq (exitListener_leases hv)
  | _ => exact .of_eq (JournalOp.run_leaseFrame h id).leases

/-! ### Steps and their renewals -/

section Runs

variable {T : Type} [LinearOrder T] {clock : UtcClock T}

/-- What a step does to the `renewed_at` of a lease: a claim that renews the lease moves
it, and nothing else does. -/
def Journal.RenewalStep (clock : UtcClock T) (j : Journal) (a : T × JournalOp)
    (l l' : ControllerLease) : Prop :=
  j.renewedAtStep clock a = some (.claimOrRenewLease, l'.label, l'.generation) ∧
      clock.Later l.renewedAt l'.renewedAt ∨
    j.renewedAtStep clock a ≠ some (.claimOrRenewLease, l'.label, l'.generation) ∧
      l'.renewedAt = l.renewedAt

theorem KeepsRenewals.renewalStep {a : T × JournalOp} (h : KeepsRenewals j j')
    (hstep : ∀ key, j.renewedAtStep clock a ≠ some (.claimOrRenewLease, key)) :
    RenewalsMove (j.RenewalStep clock a) j j' :=
  h.mono fun _ _ hsame => .inr ⟨hstep _, hsame⟩

theorem JournalOp.later_of_drawn {current : T}
    (h : op.drawn clock j current = some (.claimOrRenewLease c))
    (hlease : j.activeLease c.label = some l)
    (hmatches : l.principal.matches c.principal = true) :
    clock.Later l.renewedAt c.renewedAt := by
  unfold JournalOp.drawn at h
  split at h
  · rename_i d
    obtain ⟨d', hdrawn, heq⟩ := Option.map_eq_some_iff.mp h
    cases heq
    unfold LeaseClaim.drawn at hdrawn
    split at hdrawn
    · rename_i hnone
      cases hdrawn
      rw [hnone] at hlease
      cases hlease
    · rename_i m hm
      split at hdrawn
      · obtain ⟨renewedAt, hnext, rfl⟩ := Option.map_eq_some_iff.mp hdrawn
        cases hm.symm.trans hlease
        exact UtcClock.later_nextLeaseRenewedAt hnext
      · rename_i hother
        cases hdrawn
        cases hm.symm.trans hlease
        exact absurd hmatches hother
  · rename_i hclaim
    cases h
    exact absurd rfl (hclaim c)

theorem renewIncumbent_renewalStep {a : T × JournalOp} (hl : l ∈ j.leases) (hactive : l.Active)
    (hlabel : l.label = c.label) (hadvance : LeasesAdvance j j')
    (hj' : j'.leases = (j.renewIncumbent c l).2.leases)
    (hlater : clock.Later l.renewedAt c.renewedAt)
    (hstep : j.renewedAtStep clock a = some (.claimOrRenewLease, l.label, l.generation)) :
    RenewalsMove (j.RenewalStep clock a) j j' := by
  refine ⟨hadvance, fun l' hl' => ?_⟩
  rw [hj'] at hl'
  obtain ⟨m, hm, rfl⟩ := Table.exists_of_mem hl' rfl
  refine .inl ⟨m, hm, ?_⟩
  have hkey : m.label = l.label → m.generation = l.generation → m = l := fun h₁ h₂ =>
    Table.eq_of_not_compat hm hl (fun hc => hc.key (Prod.ext h₁ h₂))
      fun hc => hc.key (Prod.ext h₁.symm h₂.symm)
  split
  · rename_i hsel
    obtain rfl := hkey (hsel.1.trans hlabel.symm) hsel.2.1
    exact ⟨⟨rfl, rfl, rfl⟩, .inl ⟨hstep, hlater⟩⟩
  · rename_i hsel
    refine ⟨⟨rfl, rfl, rfl⟩, .inr ⟨fun heq => hsel ?_, rfl⟩⟩
    rw [hstep] at heq
    simp only [Option.some.injEq, Prod.mk.injEq, true_and] at heq
    obtain rfl := hkey heq.1.symm heq.2.symm
    exact ⟨hlabel, rfl, rfl, hactive⟩

theorem JournalOp.renews_claim {key : Label × ℕ}
    (h : op.renews j = some (.claimOrRenewLease, key)) :
    ∃ c l r, op = .claimOrRenewLease c ∧ j.activeLease c.label = some l ∧
      j.claimOrRenewLease c = .ok r ∧ l.principal.matches c.principal = true := by
  unfold JournalOp.renews at h
  split at h
  · rename_i c
    split at h
    · rename_i l r hlease hcommit
      split at h
      · exact ⟨c, l, r, rfl, hlease, hcommit, ‹_›⟩
      · cases h
    · cases h
  · split at h <;> cases h
  · cases h

/-- **Step.**  The rows after a step, with the renewal it makes. -/
theorem Journal.stepAt_renewals (clock : UtcClock T) (j : Journal) (a : T × JournalOp) :
    RenewalsMove (j.RenewalStep clock a) j (j.stepAt clock a) := by
  unfold Journal.stepAt
  split
  · rename_i hdrawn
    refine (KeepsRenewals.refl j).renewalStep fun key => ?_
    simp [Journal.renewedAtStep, hdrawn]
  rename_i op hdrawn
  have hrenewed : j.renewedAtStep clock a = op.renews j := by
    simp [Journal.renewedAtStep, hdrawn]
  have hclaimed : ∀ key, op.renews j = some (.claimOrRenewLease, key) →
      ∃ c l r, op = .claimOrRenewLease c ∧ j.activeLease c.label = some l ∧
        j.claimOrRenewLease c = .ok r ∧ l.principal.matches c.principal = true := fun key =>
    JournalOp.renews_claim
  unfold Journal.step
  split
  · rename_i j' hrun
    by_cases hclaim : ∃ c, op = .claimOrRenewLease c
    · obtain ⟨c, rfl⟩ := hclaim
      obtain ⟨v, hv⟩ := Tx.committed_eq_ok.mp hrun
      rcases claimOrRenewLease_leases hv with ⟨l, hlease, hmatches, hleases⟩ | ⟨hother, hkeeps⟩
      · obtain ⟨hl, hlabel, hactive⟩ := Journal.activeLease_eq_some.mp hlease
        refine renewIncumbent_renewalStep hl hactive hlabel (leaseRules_keeps.claimOrRenewLease trivial hv).2
          hleases ?_ ?_
        · exact JournalOp.later_of_drawn hdrawn hlease hmatches
        · rw [hrenewed]
          simp [JournalOp.renews, hlease, hv, hmatches]
      · refine hkeeps.renewalStep fun key hkey => ?_
        obtain ⟨d, l, r, hd, hlease, -, hmatches⟩ := hclaimed key (hrenewed ▸ hkey)
        cases hd
        rw [hother l hlease] at hmatches
        cases hmatches
    · refine (JournalOp.keepsRenewals hrun fun c hc => hclaim ⟨c, hc⟩).renewalStep
        fun key hkey => ?_
      obtain ⟨c, l, r, hc, -⟩ := hclaimed key (hrenewed ▸ hkey)
      exact hclaim ⟨c, hc⟩
  · rename_i e hrun
    refine (KeepsRenewals.refl j).renewalStep fun key hkey => ?_
    obtain ⟨c, l, r, rfl, -, hcommit, -⟩ := hclaimed key (hrenewed ▸ hkey)
    simp only [JournalOp.run, hcommit] at hrun
    cases hrun

/-! ### The row that was read, later on -/

/-- The generation of the row `r` is still in the table, with its nonce and a `renewed_at`
that `P` holds of. -/
structure Journal.Descends (r : ControllerLease) (P : Timestamp → Prop) (j : Journal) :
    Prop where
  mem : ∃ l ∈ j.leases, l.label = r.label ∧ l.generation = r.generation
  row : ∀ l ∈ j.leases, l.label = r.label → l.generation = r.generation →
    l.nonce = r.nonce ∧ P l.renewedAt

theorem Journal.Descends.of_mem (hr : r ∈ j.leases) :
    j.Descends r (· = r.renewedAt) where
  mem := ⟨r, hr, rfl, rfl⟩
  row l hl hlabel hgeneration := by
    obtain rfl : l = r := Table.eq_of_not_compat hl hr
      (fun hc => hc.key (Prod.ext hlabel hgeneration))
      fun hc => hc.key (Prod.ext hlabel.symm hgeneration.symm)
    exact ⟨rfl, rfl⟩

theorem Journal.Descends.mono {P Q : Timestamp → Prop} (h : j.Descends r P)
    (hPQ : ∀ s, P s → Q s) : j.Descends r Q where
  mem := h.mem
  row l hl hlabel hgeneration := (h.row l hl hlabel hgeneration).imp_right (hPQ _)

theorem Journal.Descends.stepAt {P Q : Timestamp → Prop} (h : j.Descends r P)
    (a : T × JournalOp)
    (hrenew : j.renewedAtStep clock a = some (.claimOrRenewLease, r.label, r.generation) →
      ∀ s s', P s → clock.Later s s' → Q s')
    (hkeep : j.renewedAtStep clock a ≠ some (.claimOrRenewLease, r.label, r.generation) →
      ∀ s, P s → Q s) : (j.stepAt clock a).Descends r Q where
  mem := by
    obtain ⟨l, hl, hlabel, hgeneration⟩ := h.mem
    obtain ⟨l', hl', hlabel', hgeneration', -⟩ :=
      (Journal.stepAt_renewals clock j a).advance.kept l hl
    exact ⟨l', hl', hlabel'.trans hlabel, hgeneration'.trans hgeneration⟩
  row l' hl' hlabel hgeneration := by
    rcases (Journal.stepAt_renewals clock j a).row l' hl' with
      ⟨l, hl, hsame, hmove⟩ | hnew
    · obtain ⟨hnonce, hP⟩ := h.row l hl (hsame.label.trans hlabel)
        (hsame.generation.trans hgeneration)
      refine ⟨hsame.nonce.symm.trans hnonce, ?_⟩
      rw [Journal.RenewalStep, hlabel, hgeneration] at hmove
      rcases hmove with ⟨hstep, hlater⟩ | ⟨hstep, heq⟩
      · exact hrenew hstep _ _ hP hlater
      · rw [heq]
        exact hkeep hstep _ hP
    · obtain ⟨l, hl, hlabel', hgeneration'⟩ := h.mem
      have hlt := hnew l hl (hlabel'.trans hlabel.symm)
      omega

/-- **Run.**  A row that a claim renewed since it was read has a later `renewed_at`. -/
theorem Journal.Descends.of_renewed (hr : r ∈ j.leases) {between : List (T × JournalOp)}
    (h : j.Renewed clock between .claimOrRenewLease r.label r.generation) :
    (Machine.run (Journal.stepAt clock) j between).Descends r (clock.Later r.renewedAt) := by
  have hfirst : j.Descends r fun s => s = r.renewedAt ∨ clock.Later r.renewedAt s :=
    (Journal.Descends.of_mem hr).mono fun s => .inl
  have hlater : ∀ s s', (s = r.renewedAt ∨ clock.Later r.renewedAt s) → clock.Later s s' →
      clock.Later r.renewedAt s' := by
    rintro s s' (rfl | hs) hlater
    · exact hlater
    · exact hs.trans hlater
  refine Machine.run_of_occurs ?_ ?_ ?_ hfirst h
  · exact fun j a hj => hj.stepAt a (fun _ s s' hs h => .inr (hlater s s' hs h))
      fun _ s hs => hs
  · exact fun j a hj hstep => hj.stepAt a (fun _ => hlater) fun hne => absurd hstep hne
  · exact fun j a hj => hj.stepAt a (fun _ s s' hs hlater => hs.trans hlater) fun _ s hs => hs

/-- **Run.**  A row that no claim renewed since it was read has the same `renewed_at`. -/
theorem Journal.Descends.of_not_renewed :
    ∀ {between : List (T × JournalOp)} {j : Journal}, j.Descends r (· = r.renewedAt) →
      ¬ j.Renewed clock between .claimOrRenewLease r.label r.generation →
        (Machine.run (Journal.stepAt clock) j between).Descends r (· = r.renewedAt) := by
  intro between
  induction between with
  | nil => exact fun hj _ => hj
  | cons a rest ih =>
    intro j hj hnot
    obtain ⟨hstep, hrest⟩ := not_or.mp hnot
    exact ih (hj.stepAt a (fun h => absurd h hstep) fun _ s hs => hs) hrest

end Runs

/-! ### The rows a sweep ends -/

/-- The evidence still describes the lease. -/
structure ProvenDead.Describes (d : ProvenDead) (l : ControllerLease) : Prop where
  label : l.label = d.label
  generation : l.generation = d.generation
  nonce : l.nonce = d.nonce
  renewedAt : l.renewedAt = d.renewedAt
  active : l.Active

theorem Journal.provenDeadLease_eq_some (h : j.provenDeadLease d = some l) :
    l ∈ j.leases ∧ d.Describes l := by
  obtain ⟨hl, hp⟩ := Table.find?_eq_some h
  simp only [decide_eq_true_eq] at hp
  obtain ⟨hlabel, hgeneration, hnonce, hrenewedAt, hactive⟩ := hp
  exact ⟨hl, hlabel, hgeneration, hnonce, hrenewedAt, hactive⟩

theorem expireActiveLease_spares (h : j.expireActiveLease d endedAt = .ok (v, j'))
    (hl : l ∈ j.leases) (hnot : ¬ d.Describes l) : l ∈ j'.leases := by
  rcases expireActiveLease_leases h with ⟨-, hsame⟩ | ⟨m, hm, hended⟩
  · rwa [hsame]
  · obtain ⟨hmem, hdescribes⟩ := Journal.provenDeadLease_eq_some hm
    rw [hended]
    refine Table.mem_update.mpr ⟨l, hl, if_neg ?_⟩
    rintro ⟨hlabel, hgeneration, -⟩
    obtain rfl : l = m := Table.eq_of_not_compat hl hmem
      (fun hc => hc.key (Prod.ext (hlabel.trans hdescribes.label.symm)
        (hgeneration.trans hdescribes.generation.symm)))
      fun hc => hc.key (Prod.ext (hdescribes.label.trans hlabel.symm)
        (hdescribes.generation.trans hgeneration.symm))
    exact hnot hdescribes

theorem expireStaleLeases_spares {provenDead : List ProvenDead} :
    ∀ {j j' : Journal} {v : List ControllerLease},
      j.expireStaleLeases provenDead endedAt = .ok (v, j') → ∀ l ∈ j.leases,
        (∀ d ∈ provenDead, ¬ d.Describes l) → l ∈ j'.leases := by
  induction provenDead with
  | nil =>
    intro j j' v h l hl _
    cases h
    exact hl
  | cons d rest ih =>
    intro j j' v h l hl hnot
    obtain ⟨ended, i, hfirst, h⟩ := Tx.andThen_eq_ok.mp h
    obtain ⟨expired, k, hrest, h⟩ := Tx.andThen_eq_ok.mp h
    cases h
    have hi := expireActiveLease_spares hfirst hl (hnot d List.mem_cons_self)
    exact ih hrest l hi fun e he => hnot e (List.mem_cons_of_mem d he)

/-- The rows an expiry leaves `ACTIVE` are rows it left alone, and its evidence describes
none of them. -/
theorem expireActiveLease_active (h : j.expireActiveLease d endedAt = .ok (v, j'))
    (hl : l ∈ j'.leases) (hactive : l.Active) :
    l ∈ j.leases ∧ ¬ d.Describes l := by
  rcases expireActiveLease_leases h with ⟨hnone, hsame⟩ | ⟨m, -, hended⟩
  · rw [hsame] at hl
    refine ⟨hl, fun hd => of_decide_eq_false (Table.find?_eq_none.mp hnone l hl) ?_⟩
    exact ⟨hd.label, hd.generation, hd.nonce, hd.renewedAt, hd.active⟩
  · rw [hended] at hl
    obtain ⟨m, hm, rfl⟩ := Table.exists_of_mem hl rfl
    split at hactive
    · cases hactive
    · rename_i hnot
      rw [if_neg hnot]
      exact ⟨hm, fun hd => hnot ⟨hd.label, hd.generation, hd.active⟩⟩

theorem expireStaleLeases_active {provenDead : List ProvenDead} :
    ∀ {j j' : Journal} {v : List ControllerLease},
      j.expireStaleLeases provenDead endedAt = .ok (v, j') → ∀ l ∈ j'.leases, l.Active →
        l ∈ j.leases ∧ ∀ d ∈ provenDead, ¬ d.Describes l := by
  induction provenDead with
  | nil =>
    intro j j' v h l hl _
    cases h
    exact ⟨hl, nofun⟩
  | cons d rest ih =>
    intro j j' v h l hl hactive
    obtain ⟨ended, i, hfirst, h⟩ := Tx.andThen_eq_ok.mp h
    obtain ⟨expired, k, hrest, h⟩ := Tx.andThen_eq_ok.mp h
    cases h
    obtain ⟨hi, hspared⟩ := ih hrest l hl hactive
    obtain ⟨hj, hnot⟩ := expireActiveLease_active hfirst hi hactive
    refine ⟨hj, fun e he => ?_⟩
    rcases List.mem_cons.mp he with rfl | he
    · exact hnot
    · exact hspared e he

/-! ### Renewals behind the sweep's back -/

section Survival

variable {T : Type} [LinearOrder T] (clock : UtcClock T)

/-- **Survival.**  Every lease renewed since the sweep read the leases of `j` is after the
sweep as it was before. -/
def Journal.RenewedSurvive (j : Journal) (between : List (T × JournalOp))
    (dead : List ProvenDead) (endedAt : Timestamp) : Prop :=
  let j' := Machine.run (Journal.stepAt clock) j between
  ∀ l ∈ j'.leases, j.Renewed clock between .claimOrRenewLease l.label l.generation ∨
      j.Renewed clock between .renewActiveLease l.label l.generation →
    l ∈ (j'.step (.expireStaleLeases dead endedAt)).leases

/-- The sweep's comparison sees every renewal: a lease it holds to be dead and that
`renew_active_lease` renewed since the read was renewed by a claim too, or has ended. -/
def Journal.RenewalsSeen (j : Journal) (between : List (T × JournalOp))
    (dead : List ProvenDead) : Prop :=
  ∀ d ∈ dead, j.Renewed clock between .renewActiveLease d.label d.generation →
    j.Renewed clock between .claimOrRenewLease d.label d.generation ∨
      ∀ l ∈ (Machine.run (Journal.stepAt clock) j between).leases,
        l.label = d.label → l.generation = d.generation → ¬ l.Active

instance (j : Journal) (between : List (T × JournalOp)) (dead : List ProvenDead)
    (endedAt : Timestamp) : Decidable (j.RenewedSurvive clock between dead endedAt) := by
  unfold Journal.RenewedSurvive
  infer_instance

instance (j : Journal) (between : List (T × JournalOp)) (dead : List ProvenDead) :
    Decidable (j.RenewalsSeen clock between dead) := by
  unfold Journal.RenewalsSeen
  infer_instance

variable {clock}

theorem Journal.not_describes_of_claimed {between : List (T × JournalOp)}
    (hd : d ∈ j.provenDead probe itemId)
    (hclaimed : j.Renewed clock between .claimOrRenewLease d.label d.generation)
    (hl : l ∈ (Machine.run (Journal.stepAt clock) j between).leases) :
    ¬ d.Describes l := by
  intro hdescribes
  obtain ⟨r, hr, -, hlabel, hgeneration, -, hrenewedAt⟩ := Journal.mem_provenDead hd
  rw [hlabel, hgeneration] at hclaimed
  obtain ⟨-, hlater⟩ := (Journal.Descends.of_renewed hr hclaimed).row l hl
    (hdescribes.label.trans hlabel) (hdescribes.generation.trans hgeneration)
  exact hlater.ne (hdescribes.renewedAt.trans hrenewedAt)

/-- Evidence about a lease that no claim renewed describes it as long as it is `ACTIVE`. -/
theorem Journal.describes_of_not_claimed {between : List (T × JournalOp)}
    (hd : d ∈ j.provenDead probe itemId)
    (hnot : ¬ j.Renewed clock between .claimOrRenewLease d.label d.generation)
    (hl : l ∈ (Machine.run (Journal.stepAt clock) j between).leases)
    (hlabel : l.label = d.label) (hgeneration : l.generation = d.generation)
    (hactive : l.Active) : d.Describes l := by
  obtain ⟨r, hr, -, hdlabel, hdgeneration, hdnonce, hdrenewedAt⟩ := Journal.mem_provenDead hd
  rw [hdlabel, hdgeneration] at hnot
  obtain ⟨hnonce, hrenewedAt⟩ :=
    (Journal.Descends.of_not_renewed (.of_mem hr) hnot).row l hl
      (hlabel.trans hdlabel) (hgeneration.trans hdgeneration)
  exact ⟨hlabel, hgeneration, hnonce.trans hdnonce.symm, hrenewedAt.trans hdrenewedAt.symm,
    hactive⟩

/-- **A renewed lease survives the sweep.**  Between the sweep's read and its transaction
other writers do anything, at any readings of the clock.  Whatever they renew survives,
unless `renew_active_lease` alone renewed a lease the sweep holds to be dead; where the
UUIDs the sweep draws are new, such a lease does not survive. -/
theorem Journal.renewed_lease_survives (clock : UtcClock T) (j : Journal)
    (between : List (T × JournalOp)) (probe : ControllerLease → Option Bool)
    (itemId : ControllerLease → String) (endedAt : Timestamp) :
    let dead := j.provenDead probe itemId
    (j.RenewalsSeen clock between dead → j.RenewedSurvive clock between dead endedAt) ∧
      ((Machine.run (Journal.stepAt clock) j between).SweepFresh dead →
        j.RenewedSurvive clock between dead endedAt → j.RenewalsSeen clock between dead) := by
  intro dead
  constructor
  · intro hseen l hl hrenewed
    have hspared : ∀ d ∈ dead, ¬ d.Describes l := by
      intro d hd hdescribes
      have hclaimed : j.Renewed clock between .claimOrRenewLease d.label d.generation ∨
          ¬ l.Active := by
        rw [hdescribes.label, hdescribes.generation] at hrenewed
        rcases hrenewed with hclaimed | hdeadline
        · exact .inl hclaimed
        · exact (hseen d hd hdeadline).imp_right fun hended =>
            hended l hl hdescribes.label hdescribes.generation
      rcases hclaimed with hclaimed | hended
      · exact Journal.not_describes_of_claimed hd hclaimed hl hdescribes
      · exact hended hdescribes.active
    refine Journal.step_of_run (P := fun j' => l ∈ j'.leases) hl fun j'' hrun => ?_
    obtain ⟨v, hv⟩ := Tx.committed_eq_ok.mp hrun
    exact expireStaleLeases_spares hv l hl hspared
  · intro hfresh hsurvive d hd hdeadline
    by_contra hnot
    obtain ⟨hunclaimed, hactive⟩ := not_or.mp hnot
    push Not at hactive
    obtain ⟨l, hl, hlabel, hgeneration, hactive⟩ := hactive
    have hdescribes := Journal.describes_of_not_claimed hd hunclaimed hl hlabel hgeneration hactive
    have hmem := hsurvive l hl (.inr (by rwa [hlabel, hgeneration]))
    obtain ⟨v, j'', hcommit⟩ := Journal.expireStaleLeases_commits endedAt hfresh
    rw [Journal.step, show (JournalOp.expireStaleLeases dead endedAt).run _ = _ from
      Tx.committed_eq_ok.mpr ⟨v, hcommit⟩] at hmem
    exact (expireStaleLeases_active hcommit l hmem hactive).2 d hd hdescribes

end Survival

/-! ### Two short runs -/

/-- Three consecutive microseconds of the clock, the last one taken to be its end. -/
def threeInstants : UtcClock (Fin 3) where
  isoformat
    | 0 => "2026-09-01T10:00:00.000000+00:00"
    | 1 => "2026-09-01T10:00:00.000001+00:00"
    | 2 => "2026-09-01T10:00:00.000002+00:00"
  parseUtc text :=
    if text = "2026-09-01T10:00:00+00:00" ∨ text = "2026-09-01T10:00:00.000000+00:00" then some 0
    else if text = "2026-09-01T10:00:00.000001+00:00" then some 1
    else if text = "2026-09-01T10:00:00.000002+00:00" then some 2
    else none
  nextMicrosecond t := if t = 2 then none else some (t + 1)
  parseUtc_isoformat := by decide
  lt_nextMicrosecond := by decide

/-- A claim of `ctl` by the process 7. -/
def claimBySeven : LeaseClaim where
  label := "ctl"
  principal := ⟨some 7, some "tok", none⟩
  nonce := none
  takeover := false
  incumbentLiveness := none
  freshNonce := "nonce-1"
  itemId := "item-1"
  now := "2026-09-01T10:00:00+00:00"
  renewedAt := "2026-09-01T10:00:00+00:00"
  deadline := "2026-09-01T11:00:00+00:00"

/-- The journal the sweep reads: `ctl` is held by the process 7. -/
def Journal.heldBySeven : Journal := Journal.fresh.step (.claimOrRenewLease claimBySeven)

/-- Two renewals by claim within one tick of the clock move `renewed_at` twice, and the lease
survives a sweep that read it before them. -/
theorem Journal.claimed_lease_survives :
    Journal.heldBySeven.RenewedSurvive threeInstants
      [(0, .claimOrRenewLease claimBySeven), (0, .claimOrRenewLease claimBySeven)]
      (Journal.heldBySeven.provenDead (fun _ => some false) fun _ => "item-2")
      "2026-09-01T10:00:00+00:00" :=
  (Journal.renewed_lease_survives threeInstants _ _ _ _ _).1 (by decide +kernel)

/-- A lease that `renew_active_lease` renewed after the sweep read it is ended by the
sweep. -/
theorem Journal.deadline_renewal_lost :
    ¬ Journal.heldBySeven.RenewedSurvive threeInstants
      [(0, .renewActiveLease "ctl" "nonce-1" 1 "2026-09-01T12:00:00+00:00")]
      (Journal.heldBySeven.provenDead (fun _ => some false) fun _ => "item-2")
      "2026-09-01T10:00:00+00:00" := by
  decide +kernel

end GoalFlight
