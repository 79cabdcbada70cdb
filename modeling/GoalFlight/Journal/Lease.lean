import GoalFlight.Journal.Attention

/-!
# Controller leases and listener coverage

A controller holds its label through a *lease*.  Claiming a free label makes the
next generation; claiming it as the same principal renews; a takeover or a proven
death ends the incumbent generation first.  A listener *arms* coverage for the
generation whose nonce it carries.

Two table operations end things, and each touches nothing that has already ended:
`LeaseTable.endActive` and `CoverageTable.exitWhere`.
-/

namespace GoalFlight

open Relational

variable {label : Label} {nonce : String} {j j' : Journal} {now : Timestamp}
  {v : ControllerLease}

variable {reason : String}

/-! ### Table operations -/

namespace LeaseTable

/-- `UPDATE controller_leases SET state = …, ended_at = …, ended_reason = …
WHERE label = ? AND generation = ? AND state = 'ACTIVE'`. -/
def endActive (t : LeaseTable) (label : Label) (generation : ℕ) (e : LeaseEnd) :
    LeaseTable :=
  t.update
    (fun l =>
      if l.label = label ∧ l.generation = generation ∧ l.Active then
        { l with ended := some e }
      else l)
    (by
      rintro a b ⟨hkey, hnonce, hactive⟩
      refine ⟨?_, ?_, ?_⟩
      · split <;> split <;> exact hkey
      · split <;> split <;> exact hnonce
      · rintro ⟨ha, hb, heq⟩
        split at ha
        · cases ha
        · split at hb
          · cases hb
          · rw [if_neg ‹_›, if_neg ‹_›] at heq
            exact hactive ⟨ha, hb, heq⟩)

/-- `UPDATE controller_leases SET …` over columns no constraint mentions. -/
def renewWhere (t : LeaseTable) (p : ControllerLease → Prop) [DecidablePred p]
    (renewedAt : ControllerLease → Timestamp) (renewDeadlineAt : Timestamp)
    (principal : ControllerLease → Principal) : LeaseTable :=
  t.update
    (fun l =>
      if p l then
        { l with
          renewedAt := renewedAt l
          renewDeadlineAt := renewDeadlineAt
          principal := principal l }
      else l)
    (by
      rintro a b ⟨hkey, hnonce, hactive⟩
      refine ⟨?_, ?_, ?_⟩
      · split <;> split <;> exact hkey
      · split <;> split <;> exact hnonce
      · split <;> split <;> exact hactive)

/-- `SELECT MAX(generation) FROM controller_leases WHERE label = ?`. -/
def maxGeneration? (t : LeaseTable) (label : Label) : Option ℕ :=
  ((t.rows.filter fun l => l.label = label).map ControllerLease.generation).max?

theorem generation_le_maxGeneration {t : LeaseTable} {l : ControllerLease} (hl : l ∈ t) :
    l.generation ≤ (t.maxGeneration? l.label).getD 0 := by
  apply List.le_max?_getD_of_mem
  exact List.mem_map_of_mem (List.mem_filter.mpr ⟨hl, by simp⟩)

end LeaseTable

/-- `UPDATE listener_coverage SET state = 'EXITED', exited_at = ?, exit_reason = ?
WHERE p AND state = 'ARMED'`. -/
def CoverageTable.exitWhere (t : CoverageTable) (p : ListenerCoverage → Prop)
    [DecidablePred p] (e : CoverageExit) : CoverageTable :=
  t.update (fun c => if p c ∧ c.Armed then { c with exited := some e } else c)
    (by
      rintro a b ⟨hkey, harmed⟩
      refine ⟨?_, ?_⟩
      · split <;> split <;> exact hkey
      · rintro ⟨ha, hb, heq⟩
        split at ha
        · cases ha
        · split at hb
          · cases hb
          · rw [if_neg ‹_›, if_neg ‹_›] at heq
            exact harmed ⟨ha, hb, heq⟩)

/-- The coverage of one lease generation. -/
abbrev ListenerCoverage.Covers (c : ListenerCoverage) (label : Label) (generation : ℕ) :
    Prop :=
  c.label = label ∧ c.leaseGeneration = generation

/-! ### Ending a lease whose holder died -/

/-- A lease whose holder a probe proved dead, as the probe read it, with the UUID its
expiry draws if it opens an attention item. -/
structure ProvenDead where
  label : Label
  generation : ℕ
  nonce : String
  renewedAt : Timestamp
  itemId : String

/-- The lease a probe's evidence still describes. -/
def Journal.provenDeadLease (j : Journal) (d : ProvenDead) : Option ControllerLease :=
  j.leases.find? fun l => l.label = d.label ∧ l.generation = d.generation ∧
    l.nonce = d.nonce ∧ l.renewedAt = d.renewedAt ∧ l.Active

/-- `_expire_active_lease`.  The value is the ended lease, or nothing when the lease
was renewed, replaced or ended since the probe. -/
def Journal.expireActiveLease (j : Journal) (d : ProvenDead) (endedAt : Timestamp) :
    Tx (Option ControllerLease) :=
  match j.provenDeadLease d with
  | none => .ok (none, j)
  | some l =>
    let e := ⟨.expired, endedAt, "holder-dead"⟩
    let j := { j with
      leases := j.leases.endActive d.label d.generation e
      coverage := j.coverage.exitWhere (·.Covers d.label d.generation) ⟨endedAt, "orphaned"⟩ }
    (j.materializeAttention d.label d.generation .horizon "holder-dead" d.itemId
      endedAt).andThen fun _ j => .ok (some { l with ended := some e }, j)

/-- `expire_stale_leases`, from the evidence its probes gathered before the
transaction.  The value is the list of leases it ended. -/
def Journal.expireStaleLeases (j : Journal) (provenDead : List ProvenDead)
    (endedAt : Timestamp) : Tx (List ControllerLease) :=
  match provenDead with
  | [] => .ok ([], j)
  | d :: rest =>
    (j.expireActiveLease d endedAt).andThen fun ended j =>
      (j.expireStaleLeases rest endedAt).andThen fun expired j =>
        .ok (ended.toList ++ expired, j)

/-! ### Renewing and claiming -/

/-- `renew_active_lease`. -/
def Journal.renewActiveLease (j : Journal) (label : Label) (nonce : String)
    (generation : ℕ) (renewDeadlineAt : Timestamp) : Tx ControllerLease :=
  match j.leases.find? fun l => l.label = label ∧ l.nonce = nonce ∧
      l.generation = generation ∧ l.Active with
  | none => .error (.casMismatch "active lease generation or nonce changed")
  | some l =>
    .ok ({ l with renewDeadlineAt := renewDeadlineAt },
      { j with
        leases := j.leases.renewWhere
          (fun l => l.label = label ∧ l.nonce = nonce ∧ l.generation = generation ∧
            l.Active)
          ControllerLease.renewedAt renewDeadlineAt ControllerLease.principal })

/-- `_principal_matches`: process identity when the stored principal has any part of
one, the stable principal id otherwise. -/
def Principal.matches (stored supplied : Principal) : Bool :=
  if stored.pid.isSome ∨ stored.startToken.isSome then
    decide (stored.pid.isSome ∧ stored.pid ≠ some 0 ∧ stored.pid = supplied.pid ∧
      stored.startToken.isSome ∧ stored.startToken ≠ some "" ∧
      stored.startToken = supplied.startToken)
  else
    decide (stored.principalId.isSome ∧ stored.principalId ≠ some "" ∧
      stored.principalId = supplied.principalId)

/-- `LeaseLivenessEvidence`: what a caller's probe found out about an incumbent. -/
structure LeaseLivenessEvidence where
  alive : Option Bool
  generation : ℕ
  nonce : String
deriving DecidableEq

/-- The arguments of `claim_or_renew_lease`, with the UUIDs and timestamps it draws. -/
structure LeaseClaim where
  label : Label
  principal : Principal
  nonce : Option String
  takeover : Bool
  incumbentLiveness : Option LeaseLivenessEvidence
  freshNonce : String
  itemId : String
  now : Timestamp
  renewedAt : Timestamp
  deadline : Timestamp

variable {c : LeaseClaim}

/-- `incumbent_proven_dead`: the caller's evidence is about this very generation. -/
def LeaseClaim.ProvesDead (c : LeaseClaim) (l : ControllerLease) : Prop :=
  c.incumbentLiveness = some ⟨some false, l.generation, l.nonce⟩

instance (c : LeaseClaim) (l : ControllerLease) : Decidable (c.ProvesDead l) := by
  unfold LeaseClaim.ProvesDead
  infer_instance

/-- Renewal by the same principal. -/
def Journal.renewIncumbent (j : Journal) (c : LeaseClaim) (l : ControllerLease) :
    ControllerLease × Journal :=
  ({ l with renewedAt := c.renewedAt, renewDeadlineAt := c.deadline, principal := c.principal },
    { j with
      leases := j.leases.renewWhere
        (fun m => m.label = c.label ∧ m.generation = l.generation ∧ m.nonce = l.nonce ∧
          m.Active)
        (fun _ => c.renewedAt) c.deadline (fun _ => c.principal) })

/-- The incumbent's end when a different principal may replace it: expiry on proof of
death, supersession on an explicit takeover, refusal otherwise. -/
def Journal.replaceIncumbent (j : Journal) (c : LeaseClaim) (l : ControllerLease) :
    Tx Unit :=
  if c.ProvesDead l then
    (j.expireActiveLease ⟨c.label, l.generation, l.nonce, l.renewedAt, c.itemId⟩
      c.now).andThen fun _ j => .ok ((), j)
  else if c.takeover then
    .ok ((), { j with
      leases := j.leases.endActive c.label l.generation
        ⟨.superseded, c.now, "explicit-takeover"⟩
      coverage := j.coverage.exitWhere (·.Covers c.label l.generation) ⟨c.now, "superseded"⟩ })
  else
    .error (.casMismatch ("label in use: " ++ c.label ++
      "; rerun goalflight_dispatch.py with --takeover"))

/-- The cursor row a new generation inserts when its label has none. -/
def LeaseClaim.newCursor (c : LeaseClaim) (generation : ℕ) (backlog : Bool) :
    ControllerCursor where
  label := c.label
  registryGeneration := generation
  cursorVersion := 0
  backlogPending := backlog
  updatedAt := c.now
  advancedAt := none
  advancedBy := none

/-- The label's cursor row, moved to a new generation. -/
def LeaseClaim.moveCursor (c : LeaseClaim) (generation : ℕ) (backlog : Bool)
    (r : ControllerCursor) : ControllerCursor where
  label := r.label
  registryGeneration := generation
  cursorVersion := r.cursorVersion + 1
  backlogPending := backlog
  updatedAt := c.now
  advancedAt := none
  advancedBy := none

/-- The nonce of a new generation.  `replacedNonce` is that of the generation this claim
has just ended, which is not used again. -/
def LeaseClaim.allocatedNonce (c : LeaseClaim) (replacedNonce : Option String) : String :=
  match c.nonce with
  | none => c.freshNonce
  | some n => if replacedNonce = some n then c.freshNonce else n

/-- The lease row of a new generation. -/
def LeaseClaim.newLease (c : LeaseClaim) (generation : ℕ) (replacedNonce : Option String) :
    ControllerLease where
  label := c.label
  generation := generation
  nonce := c.allocatedNonce replacedNonce
  principal := c.principal
  claimedAt := c.now
  renewedAt := c.now
  renewDeadlineAt := c.deadline
  ended := none

/-- The next generation of the label, with its cursor. -/
def Journal.newGeneration (j : Journal) (c : LeaseClaim) (replacedNonce : Option String) :
    Tx ControllerLease :=
  let generation := (j.leases.maxGeneration? c.label).getD 0 + 1
  let lease := c.newLease generation replacedNonce
  match j.leases.insert? lease with
  | none => .error (.constraint "controller_leases")
  | some leases =>
    let backlog := j.labelHasUnreadDelivery c.label
    .ok (lease, { j with
      leases := leases
      cursors := j.cursors.upsert (c.newCursor generation backlog)
        (c.moveCursor generation backlog) (fun _ => rfl) })

/-- `claim_or_renew_lease`, after the expiry sweep it runs first as a transaction of
its own. -/
def Journal.claimOrRenewLease (j : Journal) (c : LeaseClaim) : Tx ControllerLease :=
  if c.principal.pid = some 0 then
    .error (.valueError "lease principal pid must be a positive integer")
  else if c.principal.pid.isNone ≠ c.principal.startToken.isNone then
    .error (.valueError "lease principal pid and start_token must be supplied together")
  else
    let j := j.collapseOpenAttention c.label c.now
    match j.activeLease c.label with
    | none => j.newGeneration c none
    | some l =>
      if l.principal.matches c.principal then .ok (j.renewIncumbent c l)
      else (j.replaceIncumbent c l).andThen fun _ j => j.newGeneration c (some l.nonce)

/-! ### Retiring -/

/-- `release_lease`. -/
def Journal.releaseLease (j : Journal) (label : Label) (nonce reason : String)
    (now : Timestamp) : Tx ControllerLease :=
  match j.leases.find? fun l => l.label = label ∧ l.nonce = nonce ∧ l.Active with
  | none => .error (.casMismatch "lease release lost: active generation or nonce changed")
  | some l =>
    let e := ⟨.retired, now, reason⟩
    let j := { j with leases := j.leases.endActive label l.generation e }
    (j.rehomeRetiredDeliveryEvents label now).andThen fun rehomed j =>
      let cursors :=
        if rehomed ≠ 0 then j.invalidateDeliveryCursorSnapshots .wildcard now (some label)
        else j.cursors
      .ok ({ l with ended := some e }, { j with
        cursors := cursors
        coverage := j.coverage.exitWhere (·.Covers label l.generation) ⟨now, "orphaned"⟩ })

/-! ### Listener coverage -/

/-- `arm_listener`, with `coverageId` the UUID it draws. -/
def Journal.armListener (j : Journal) (label : Label) (nonce : String) (pid : ℕ)
    (startToken : String) (parentPid : ℕ) (coverageId : String) (now : Timestamp) :
    Tx ListenerCoverage :=
  if pid = 0 ∨ parentPid = 0 then
    .error (.valueError "listener pid and parent_pid must be positive integers")
  else
    match j.activeLease label with
    | none => .error (.casMismatch "listener arm lost: lease generation or nonce changed")
    | some l =>
      if l.nonce ≠ nonce then
        .error (.casMismatch "listener arm lost: lease generation or nonce changed")
      else
        let row := ⟨coverageId, label, l.generation, nonce, pid, startToken, parentPid,
          now, none⟩
        match (j.coverage.exitWhere (·.Covers label l.generation) ⟨now, "superseded"⟩).insert? row with
        | none => .error (.constraint "listener_coverage")
        | some coverage => .ok (row, { j with coverage := coverage })

/-- `LISTENER_EXIT_REASONS`. -/
def listenerExitReasons : List String :=
  ["event", "timeout", "superseded", "orphaned", "stale-lease", "corrupt",
    "upgrade-required", "journal-unavailable", "journal-io-failure", "watchdog-dead",
    "signal"]

/-- `exit_listener`. -/
def Journal.exitListener (j : Journal) (coverageId reason : String) (itemId : String)
    (now : Timestamp) : Tx ListenerCoverage :=
  if reason ∉ listenerExitReasons then
    .error (.valueError "listener exit reason is not registered")
  else
    match j.coverage.find? fun c => c.coverageId = coverageId with
    | none => .error (.casMismatch "listener exit lost: coverage row is absent")
    | some c =>
      if ¬ c.Armed then .ok (c, j)
      else
        let j := { j with
          coverage := j.coverage.exitWhere (·.coverageId = coverageId) ⟨now, reason⟩ }
        let attention :=
          if reason = "orphaned" ∨ reason = "stale-lease" then
            j.materializeAttention c.label c.leaseGeneration .listener reason itemId now
          else .ok ((), j)
        attention.andThen fun _ j => .ok ({ c with exited := some ⟨now, reason⟩ }, j)

/-! ### The tables lease transactions write -/

/-- Only leases, coverage and mail tables differ, and delivery rows go by `R`. -/
structure LeaseWrite (R : DeliveryTable → DeliveryTable → Prop) (j j' : Journal) : Prop where
  delivery : R j.delivery j'.delivery
  rest : ∃ leases coverage delivery cursors attention systemAttention, j' = { j with
    leases := leases
    coverage := coverage
    delivery := delivery
    cursors := cursors
    attention := attention
    systemAttention := systemAttention }

namespace LeaseWrite

variable {R : DeliveryTable → DeliveryTable → Prop}

theorem trans [IsPreorder DeliveryTable R] {j₁ j₂ j₃ : Journal} (h₁ : LeaseWrite R j₁ j₂)
    (h₂ : LeaseWrite R j₂ j₃) : LeaseWrite R j₁ j₃ := by
  refine ⟨trans_of R h₁.delivery h₂.delivery, ?_⟩
  obtain ⟨_, _, _, _, _, _, rfl⟩ := h₁.rest
  obtain ⟨_, _, _, _, _, _, rfl⟩ := h₂.rest
  exact ⟨_, _, _, _, _, _, rfl⟩

theorem of_mail (h : MailWrite R j j') : LeaseWrite R j j' := by
  refine ⟨h.delivery, ?_⟩
  obtain ⟨_, _, _, _, rfl⟩ := h.rest
  exact ⟨_, _, _, _, _, _, rfl⟩

theorem of_tables [IsPreorder DeliveryTable R] (leases : LeaseTable) (coverage : CoverageTable)
    (cursors : KeyedTable ControllerCursor.label) :
    LeaseWrite R j { j with leases := leases, coverage := coverage, cursors := cursors } :=
  ⟨refl_of R _, _, _, _, _, _, _, rfl⟩

end LeaseWrite

/-- A lease write that leaves `system_attention_items` alone. -/
structure LeaseOnly (R : DeliveryTable → DeliveryTable → Prop) (j j' : Journal) : Prop
    extends LeaseWrite R j j' where
  systemAttention : j'.systemAttention = j.systemAttention

namespace LeaseOnly

variable {R : DeliveryTable → DeliveryTable → Prop}

theorem trans [IsPreorder DeliveryTable R] {j₁ j₂ j₃ : Journal} (h₁ : LeaseOnly R j₁ j₂)
    (h₂ : LeaseOnly R j₂ j₃) : LeaseOnly R j₁ j₃ :=
  ⟨h₁.toLeaseWrite.trans h₂.toLeaseWrite, h₂.systemAttention.trans h₁.systemAttention⟩

theorem of_mail (h : MailOnly R j j') : LeaseOnly R j j' :=
  ⟨.of_mail h.toMailWrite, h.systemAttention⟩

theorem of_tables [IsPreorder DeliveryTable R] (leases : LeaseTable) (coverage : CoverageTable)
    (cursors : KeyedTable ControllerCursor.label) :
    LeaseOnly R j { j with leases := leases, coverage := coverage, cursors := cursors } :=
  ⟨.of_tables leases coverage cursors, rfl⟩

end LeaseOnly

/-! ### What lease transactions are made of -/

/-- **What an expiry is made of**: `R` holds of the parts, in journals that meet `inv`. -/
structure ExpiryRules (inv : Journal → Prop) (R : Journal → Journal → Prop) : Prop where
  refl : ∀ j, R j j
  trans : ∀ {j₁ j₂ j₃}, R j₁ j₂ → R j₂ j₃ → R j₁ j₃
  keeps : ∀ {j j'}, R j j' → inv j → inv j'
  attention : ∀ {j j' label generation side reason itemId now u}, inv j →
    Journal.materializeAttention j label generation side reason itemId now = .ok (u, j') → R j j'
  ended : ∀ (j : Journal) label generation e x, R j { j with
    leases := j.leases.endActive label generation e
    coverage := j.coverage.exitWhere (·.Covers label generation) x }

/-- **What the other lease transactions are made of.** -/
structure LeaseRules (inv : Journal → Prop) (R : Journal → Journal → Prop) : Prop
    extends ExpiryRules inv R where
  collapse : ∀ j label now, inv j → R j (j.collapseOpenAttention label now)
  renewed : ∀ (j : Journal) p [DecidablePred p] renewedAt deadline principal,
    (∀ l, p l → l.Active) →
      R j { j with leases := j.leases.renewWhere p renewedAt deadline principal }
  new : ∀ {j j' c replaced v}, Journal.newGeneration j c replaced = .ok (v, j') → R j j'
  exited : ∀ (j : Journal) p [DecidablePred p] x,
    R j { j with coverage := j.coverage.exitWhere p x }

section

variable {inv : Journal → Prop} {R : Journal → Journal → Prop}

namespace ExpiryRules

variable (hR : ExpiryRules inv R)
include hR

theorem expireActiveLease {d : ProvenDead} {endedAt : Timestamp} {v : Option ControllerLease}
    (hinv : inv j) (h : j.expireActiveLease d endedAt = .ok (v, j')) : R j j' := by
  unfold Journal.expireActiveLease at h
  split at h
  · cases h
    exact hR.refl _
  · obtain ⟨u, i, hattention, h⟩ := Tx.andThen_eq_ok.mp h
    cases h
    have hended := hR.ended j d.label d.generation ⟨.expired, endedAt, "holder-dead"⟩
      ⟨endedAt, "orphaned"⟩
    exact hR.trans hended (hR.attention (hR.keeps hended hinv) hattention)

theorem expireStaleLeases {provenDead : List ProvenDead} {endedAt : Timestamp} :
    ∀ {j j' : Journal} {v : List ControllerLease}, inv j →
      j.expireStaleLeases provenDead endedAt = .ok (v, j') → R j j' := by
  induction provenDead with
  | nil =>
    intro j j' v _ h
    cases h
    exact hR.refl _
  | cons d rest ih =>
    intro j j' v hinv h
    obtain ⟨ended, i, hfirst, h⟩ := Tx.andThen_eq_ok.mp h
    obtain ⟨expired, k, hrest, h⟩ := Tx.andThen_eq_ok.mp h
    cases h
    have hexpired := hR.expireActiveLease hinv hfirst
    exact hR.trans hexpired (ih (hR.keeps hexpired hinv) hrest)

theorem replaceIncumbent {l : ControllerLease} {u : Unit} (hinv : inv j)
    (h : j.replaceIncumbent c l = .ok (u, j')) : R j j' := by
  unfold Journal.replaceIncumbent at h
  split at h
  · obtain ⟨v, i, hexpire, h⟩ := Tx.andThen_eq_ok.mp h
    cases h
    exact hR.expireActiveLease hinv hexpire
  · split at h
    · cases h
      exact hR.ended j c.label l.generation _ _
    · cases h

end ExpiryRules

namespace LeaseRules

variable (hR : LeaseRules inv R)
include hR

theorem renewActiveLease {generation : ℕ} {deadline : Timestamp}
    (h : j.renewActiveLease label nonce generation deadline = .ok (v, j')) : R j j' := by
  unfold Journal.renewActiveLease at h
  split at h
  · cases h
  · cases h
    exact hR.renewed j _ _ _ _ fun l hl => hl.2.2.2

theorem claimOrRenewLease (hinv : inv j) (h : j.claimOrRenewLease c = .ok (v, j')) : R j j' := by
  unfold Journal.claimOrRenewLease at h
  split at h
  · cases h
  split at h
  · cases h
  have hcollapse := hR.collapse j c.label c.now hinv
  refine hR.trans hcollapse ?_
  simp only at h
  split at h
  · exact hR.new h
  · split at h
    · cases h
      exact hR.renewed _ _ _ _ _ fun l hl => hl.2.2.2
    · obtain ⟨u, i, hreplace, h⟩ := Tx.andThen_eq_ok.mp h
      exact hR.trans (hR.replaceIncumbent (hR.keeps hcollapse hinv) hreplace) (hR.new h)

theorem exitListener {coverageId itemId : String} {v : ListenerCoverage} (hinv : inv j)
    (h : j.exitListener coverageId reason itemId now = .ok (v, j')) : R j j' := by
  unfold Journal.exitListener at h
  split at h
  · cases h
  split at h
  · cases h
  split at h
  · cases h
    exact hR.refl _
  · obtain ⟨u, i, hattention, h⟩ := Tx.andThen_eq_ok.mp h
    cases h
    have hexit := hR.exited j (·.coverageId = coverageId) ⟨now, reason⟩
    refine hR.trans hexit ?_
    split at hattention
    · exact hR.attention (hR.keeps hexit hinv) hattention
    · cases hattention
      exact hR.refl _

end LeaseRules

end

theorem newGeneration_write {replacedNonce : Option String}
    (h : j.newGeneration c replacedNonce = .ok (v, j')) :
    LeaseOnly DeliveryTable.Spares j j' := by
  unfold Journal.newGeneration at h
  simp only at h
  split at h
  · cases h
  · cases h
    exact .of_tables _ _ _

theorem leaseRules_write : LeaseRules (fun _ => True) (LeaseOnly DeliveryTable.Spares) where
  refl _ := .of_mail (.refl _)
  trans := .trans
  keeps _ h := h
  attention _ h := .of_mail (materializeAttention_write h)
  ended j _ _ _ _ := .of_tables _ _ j.cursors
  collapse j label now _ := .of_mail (collapseOpenAttention_write j label now)
  renewed j _ _ _ _ _ _ := .of_tables _ j.coverage j.cursors
  new := newGeneration_write
  exited j _ _ _ := .of_tables j.leases _ j.cursors

/-- What a committed `release_lease` does: the lease ends, the label's assignments are
re-homed, and the generation's coverage exits. -/
theorem releaseLease_eq_ok (h : j.releaseLease label nonce reason now = .ok (v, j')) :
    ∃ l n i cursors, (l ∈ j.leases ∧ l.label = label ∧ l.nonce = nonce ∧ l.Active) ∧
      { j with
        leases := j.leases.endActive label l.generation ⟨.retired, now, reason⟩
        }.rehomeRetiredDeliveryEvents label now = .ok (n, i) ∧
      SameGenerations j.cursors cursors ∧
      j' = { i with
        cursors := cursors
        coverage := j.coverage.exitWhere (·.Covers label l.generation)
          ⟨now, "orphaned"⟩ } := by
  unfold Journal.releaseLease at h
  split at h
  · cases h
  · rename_i l hfind
    obtain ⟨hl, hp⟩ := Table.find?_eq_some hfind
    simp only [decide_eq_true_eq] at hp
    obtain ⟨n, i, hrehome, h⟩ := Tx.andThen_eq_ok.mp h
    obtain ⟨_, -, moved, -, hi⟩ := Journal.rehomeRetiredDeliveryEvents_eq_ok hrehome
    cases h
    subst hi
    refine ⟨l, n, _, if n ≠ 0 then _ else _, ⟨hl, hp⟩, hrehome, ?_, rfl⟩
    split
    · exact .of_invalidate rfl rfl
    · exact .refl _

theorem releaseLease_write (h : j.releaseLease label nonce reason now = .ok (v, j')) :
    LeaseOnly DeliveryTable.Dims j j' := by
  obtain ⟨l, n, i, cursors, -, hrehome, -, rfl⟩ := releaseLease_eq_ok h
  exact ((LeaseOnly.of_tables _ j.coverage j.cursors).trans
    (.of_mail (rehomeRetiredDeliveryEvents_write hrehome))).trans (.of_tables i.leases _ _)

theorem armListener_write {pid : ℕ} {startToken : String} {parentPid : ℕ} {coverageId : String}
    {v : ListenerCoverage}
    (h : j.armListener label nonce pid startToken parentPid coverageId now = .ok (v, j')) :
    LeaseOnly DeliveryTable.Spares j j' := by
  unfold Journal.armListener at h
  split at h
  · cases h
  split at h
  · cases h
  split at h
  · cases h
  simp only at h
  split at h
  · cases h
  · cases h
    exact .of_tables _ _ _

end GoalFlight
