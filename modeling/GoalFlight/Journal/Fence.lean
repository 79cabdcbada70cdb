import GoalFlight.Journal.Operation

/-!
# Controller leases are fenced

Two things are kept over every run of the journal.

* `Fenced` relates the three tables of one state: armed coverage belongs to an
  `ACTIVE` lease, and an `ACTIVE` lease has a cursor of its own generation.
* `LeasesAdvance` relates the lease tables of an earlier and a later state: generations
  only grow, and a lease that has ended is never touched again.

Most transactions do not write leases or coverage at all, and keep every cursor's
generation; `LeaseFrame` says so once for all of them.
-/

namespace GoalFlight

open Relational

variable {label : Label} {nonce : String} {j j' : Journal} {now : Timestamp}
  {v : ControllerLease}

variable {generation : ℕ} {j₁ j₂ j₃ : Journal} {op : JournalOp} {c : LeaseClaim}

/-! ### The two properties -/

/-- The relation between leases, coverage and cursors in one state. -/
structure Fenced (j : Journal) : Prop where
  armed : ∀ c ∈ j.coverage, c.Armed →
    ∃ l ∈ j.leases, l.Active ∧ l.label = c.label ∧ l.generation = c.leaseGeneration
  cursor : ∀ l ∈ j.leases, l.Active →
    ∃ c ∈ j.cursors, c.label = l.label ∧ c.registryGeneration = l.generation

/-- The relation between the lease tables of an earlier and a later state. -/
structure LeasesAdvance (j j' : Journal) : Prop where
  kept : ∀ l ∈ j.leases, ∃ l' ∈ j'.leases, l'.label = l.label ∧
    l'.generation = l.generation ∧ l'.nonce = l.nonce ∧ (¬ l.Active → l' = l)
  grown : ∀ l' ∈ j'.leases,
    (∃ l ∈ j.leases, l.label = l'.label ∧ l.generation = l'.generation) ∨
      ∀ l ∈ j.leases, l.label = l'.label → l.generation < l'.generation

namespace LeasesAdvance

theorem of_eq (h : j'.leases = j.leases) : LeasesAdvance j j' where
  kept l hl := ⟨l, by rwa [h], rfl, rfl, rfl, fun _ => rfl⟩
  grown l' hl' := .inl ⟨l', by rwa [h] at hl', rfl, rfl⟩

theorem refl (j : Journal) : LeasesAdvance j j := of_eq rfl

theorem trans (h₁ : LeasesAdvance j₁ j₂) (h₂ : LeasesAdvance j₂ j₃) :
    LeasesAdvance j₁ j₃ where
  kept l hl := by
    obtain ⟨m, hm, hlabel, hgen, hnonce, hend⟩ := h₁.kept l hl
    obtain ⟨n, hn, hlabel', hgen', hnonce', hend'⟩ := h₂.kept m hm
    refine ⟨n, hn, hlabel'.trans hlabel, hgen'.trans hgen, hnonce'.trans hnonce, ?_⟩
    intro hl
    obtain rfl := hend hl
    exact hend' hl
  grown n hn := by
    rcases h₂.grown n hn with ⟨m, hm, hlabel, hgen⟩ | hnew
    · rcases h₁.grown m hm with ⟨l, hl, hlabel', hgen'⟩ | hnew
      · exact .inl ⟨l, hl, hlabel'.trans hlabel, hgen'.trans hgen⟩
      · exact .inr fun l hl hll => hgen ▸ hnew l hl (hll.trans hlabel.symm)
    · refine .inr fun l hl hll => ?_
      obtain ⟨m, hm, hlabel, hgen, -⟩ := h₁.kept l hl
      exact hgen ▸ hnew m hm (hlabel.trans hll)

end LeasesAdvance

/-! ### Transactions that leave leases and coverage alone -/

/-- Leases and coverage are the same, and every cursor keeps its generation. -/
structure LeaseFrame (j j' : Journal) : Prop where
  leases : j'.leases = j.leases
  coverage : j'.coverage = j.coverage
  cursors : SameGenerations j.cursors j'.cursors

theorem LeaseFrame.fenced (h : LeaseFrame j j') (hf : Fenced j) :
    Fenced j' where
  armed c hc harmed := by
    rw [h.coverage] at hc
    rw [h.leases]
    exact hf.armed c hc harmed
  cursor l hl hactive := by
    rw [h.leases] at hl
    obtain ⟨c, hc, hlabel, hgen⟩ := hf.cursor l hl hactive
    obtain ⟨d, hd, hlabel', hgen'⟩ := h.cursors c hc
    exact ⟨d, hd, hlabel'.trans hlabel, hgen'.trans hgen⟩

theorem LeaseFrame.trans (h₁ : LeaseFrame j₁ j₂) (h₂ : LeaseFrame j₂ j₃) :
    LeaseFrame j₁ j₃ :=
  ⟨h₂.leases.trans h₁.leases, h₂.coverage.trans h₁.coverage, h₁.cursors.trans h₂.cursors⟩

theorem MailWrite.leaseFrame {R : DeliveryTable → DeliveryTable → Prop}
    (h : MailWrite R j j') : LeaseFrame j j' := by
  obtain ⟨_, _, _, _, heq⟩ := h.rest
  exact ⟨by rw [heq], by rw [heq], h.cursors⟩

theorem CursorsWrite.leaseFrame (h : CursorsWrite j j') :
    LeaseFrame j j' := by
  obtain ⟨_, _, _, _, heq⟩ := h.rest
  exact ⟨by rw [heq], by rw [heq], h.cursors⟩

theorem AttemptWrite.leaseFrame (h : AttemptWrite j j') :
    LeaseFrame j j' := by
  obtain ⟨_, _, _, rfl⟩ := h
  exact ⟨rfl, rfl, .refl _⟩

/-! ### Ending a lease -/

/-- Ending the `ACTIVE` generation of a label and exiting its coverage keeps the
fence. -/
theorem Fenced.end_generation (h : Fenced j) {e : LeaseEnd} {x : CoverageExit}
    (hl : j'.leases = j.leases.endActive label generation e)
    (hv : j'.coverage = j.coverage.exitWhere (·.Covers label generation) x)
    (hc : SameGenerations j.cursors j'.cursors) : Fenced j' where
  armed c hcov harmed := by
    rw [hv] at hcov
    obtain ⟨d, hd, rfl⟩ := Table.exists_of_mem hcov rfl
    split at harmed
    · cases harmed
    · rename_i hnot
      rw [if_neg hnot]
      obtain ⟨l, hmem, hactive, hlabel, hgen⟩ := h.armed d hd harmed
      refine ⟨l, ?_, hactive, hlabel, hgen⟩
      rw [hl]
      refine Table.mem_update.mpr ⟨l, hmem, if_neg ?_⟩
      rintro ⟨rfl, rfl, -⟩
      exact hnot ⟨⟨hlabel.symm, hgen.symm⟩, harmed⟩
  cursor l hmem hactive := by
    rw [hl] at hmem
    obtain ⟨m, hm, rfl⟩ := Table.exists_of_mem hmem rfl
    split at hactive
    · cases hactive
    · rename_i hnot
      rw [if_neg hnot]
      obtain ⟨c, hcur, hlabel, hgen⟩ := h.cursor m hm hactive
      obtain ⟨d, hd, hlabel', hgen'⟩ := hc c hcur
      exact ⟨d, hd, hlabel'.trans hlabel, hgen'.trans hgen⟩

theorem LeasesAdvance.end_generation {e : LeaseEnd}
    (hl : j'.leases = j.leases.endActive label generation e) :
    LeasesAdvance j j' where
  kept l hmem := by
    rw [hl]
    refine ⟨_, Table.apply_mem rfl hmem, ?_⟩
    split
    · rename_i hsel
      exact ⟨rfl, rfl, rfl, fun hend => absurd hsel.2.2 hend⟩
    · exact ⟨rfl, rfl, rfl, fun _ => rfl⟩
  grown l' hmem := by
    rw [hl] at hmem
    obtain ⟨m, hm, rfl⟩ := Table.exists_of_mem hmem rfl
    refine .inl ⟨m, hm, ?_⟩
    split <;> exact ⟨rfl, rfl⟩

/-- A transaction that keeps the fence and only moves leases forward. -/
def KeepsFence (j j' : Journal) : Prop := (Fenced j → Fenced j') ∧ LeasesAdvance j j'

namespace KeepsFence

theorem trans (h₁ : KeepsFence j₁ j₂) (h₂ : KeepsFence j₂ j₃) :
    KeepsFence j₁ j₃ :=
  ⟨fun h => h₂.1 (h₁.1 h), h₁.2.trans h₂.2⟩

theorem of_frame (h : LeaseFrame j j') : KeepsFence j j' :=
  ⟨h.fenced, .of_eq h.leases⟩

theorem refl (j : Journal) : KeepsFence j j := of_frame ⟨rfl, rfl, .refl _⟩

end KeepsFence

/-! ### Claiming, renewing and retiring -/

theorem KeepsFence.renew {p : ControllerLease → Prop} [DecidablePred p]
    {renewedAt : ControllerLease → Timestamp} {deadline : Timestamp}
    {principal : ControllerLease → Principal} (hp : ∀ l, p l → l.Active)
    (hj' : j' = { j with leases := j.leases.renewWhere p renewedAt deadline principal }) :
    KeepsFence j j' := by
  subst hj'
  refine ⟨fun hf => ⟨fun c hc harmed => ?_, fun l hl hactive => ?_⟩,
    fun l hl => ?_, fun l' hl' => ?_⟩
  · obtain ⟨l, hl, hactive, hlabel, hgen⟩ := hf.armed c hc harmed
    refine ⟨_, Table.apply_mem rfl hl, ?_⟩
    split <;> exact ⟨hactive, hlabel, hgen⟩
  · obtain ⟨m, hm, rfl⟩ := Table.exists_of_mem hl rfl
    have hm' : m.Active := by split at hactive <;> exact hactive
    obtain ⟨c, hc, hlabel, hgen⟩ := hf.cursor m hm hm'
    refine ⟨c, hc, ?_⟩
    split <;> exact ⟨hlabel, hgen⟩
  · refine ⟨_, Table.apply_mem rfl hl, ?_⟩
    split
    · exact ⟨rfl, rfl, rfl, fun hend => absurd (hp l ‹_›) hend⟩
    · exact ⟨rfl, rfl, rfl, fun _ => rfl⟩
  · obtain ⟨m, hm, rfl⟩ := Table.exists_of_mem hl' rfl
    refine .inl ⟨m, hm, ?_⟩
    split <;> exact ⟨rfl, rfl⟩

/-- The new generation is the label's only `ACTIVE` one, since the unique index let it
in, and it gets the label's cursor. -/
theorem newGeneration_keeps {replacedNonce : Option String}
    (h : j.newGeneration c replacedNonce = .ok (v, j')) : KeepsFence j j' := by
  unfold Journal.newGeneration at h
  simp only at h
  split at h
  · cases h
  rename_i leases hinsert
  cases h
  obtain ⟨hcompat, hrows⟩ := Table.insert?_eq_some hinsert
  have hold : ∀ l ∈ j.leases, l ∈ leases := fun l hl =>
    (Table.mem_of_insert? hinsert).mpr (.inl hl)
  have hgrown : ∀ l ∈ j.leases, l.label = c.label →
      l.generation < (j.leases.maxGeneration? c.label).getD 0 + 1 := fun l hl hlabel =>
    hlabel ▸ Nat.lt_succ_of_le (LeaseTable.generation_le_maxGeneration hl)
  refine ⟨fun hf => ⟨fun v hv harmed => ?_, fun l hl hactive => ?_⟩, ?_, fun l' hl' => ?_⟩
  · obtain ⟨l, hl, hrest⟩ := hf.armed v hv harmed
    exact ⟨l, hold l hl, hrest⟩
  · rcases (Table.mem_of_insert? hinsert).mp hl with hl | rfl
    · obtain ⟨d, hd, hlabel, hgen⟩ := hf.cursor l hl hactive
      have hne : d.label ≠ c.label := fun heq =>
        (hcompat l hl).oneActive ⟨hactive, rfl, hlabel.symm.trans heq⟩
      refine ⟨d, KeyedTable.mem_upsert_of_ne ?_ hd hne, hlabel, hgen⟩
      exact fun _ => rfl
    · refine ⟨_, KeyedTable.elim_mem_upsert _ _ _ ?_, ?_⟩
      · exact fun _ => rfl
      cases hget : j.cursors.get? c.label with
      | none =>
        rw [show j.cursors.get? (c.newCursor _ _).label = none from hget]
        exact ⟨rfl, rfl⟩
      | some r =>
        rw [show j.cursors.get? (c.newCursor _ _).label = some r from hget]
        exact ⟨(KeyedTable.get?_eq_some.mp hget).2, rfl⟩
  · exact fun l hl => ⟨l, hold l hl, rfl, rfl, rfl, fun _ => rfl⟩
  · rcases (Table.mem_of_insert? hinsert).mp hl' with hl | rfl
    · exact .inl ⟨l', hl, rfl, rfl⟩
    · exact .inr hgrown

theorem releaseLease_keeps {reason : String}
    (h : j.releaseLease label nonce reason now = .ok (v, j')) : KeepsFence j j' := by
  obtain ⟨l, n, i, cursors, -, hrehome, hgen, rfl⟩ := releaseLease_eq_ok h
  obtain ⟨_, -, moved, -, rfl⟩ := Journal.rehomeRetiredDeliveryEvents_eq_ok hrehome
  exact ⟨fun hf => hf.end_generation rfl rfl hgen, .end_generation rfl⟩

/-! ### Arming and exiting coverage -/

theorem mem_exitWhere_armed {t : CoverageTable} {p : ListenerCoverage → Prop}
    [DecidablePred p] {x : CoverageExit} {c : ListenerCoverage} (hc : c ∈ t.exitWhere p x)
    (harmed : c.Armed) : c ∈ t := by
  obtain ⟨d, hd, rfl⟩ := Table.exists_of_mem hc rfl
  split at harmed
  · cases harmed
  · rwa [if_neg ‹_›]

theorem armListener_keeps {pid : ℕ} {startToken : String} {parentPid : ℕ} {coverageId : String}
    {v : ListenerCoverage}
    (h : j.armListener label nonce pid startToken parentPid coverageId now = .ok (v, j')) :
    KeepsFence j j' := by
  unfold Journal.armListener at h
  split at h
  · cases h
  split at h
  · cases h
  rename_i l hlease
  split at h
  · cases h
  simp only at h
  split at h
  · cases h
  rename_i coverage hinsert
  cases h
  obtain ⟨hmem, hlabel, hactive⟩ := Journal.activeLease_eq_some.mp hlease
  refine ⟨fun hf => ⟨fun c hc harmed => ?_, hf.cursor⟩, .of_eq rfl⟩
  rcases (Table.mem_of_insert? hinsert).mp hc with hc | rfl
  · exact hf.armed c (mem_exitWhere_armed hc harmed) harmed
  · exact ⟨l, hmem, hactive, hlabel, rfl⟩

theorem leaseRules_keeps : LeaseRules (fun _ => True) KeepsFence where
  refl := .refl
  trans := .trans
  keeps _ h := h
  attention _ h := .of_frame (materializeAttention_write h).leaseFrame
  ended _ _ _ _ _ := ⟨fun hf => hf.end_generation rfl rfl (.refl _), .end_generation rfl⟩
  collapse j label now _ := .of_frame (collapseOpenAttention_write j label now).leaseFrame
  renewed _ _ _ _ _ _ hp := .renew hp rfl
  new := newGeneration_keeps
  exited _ _ _ _ :=
    ⟨fun hf => ⟨fun c hc harmed => hf.armed c (mem_exitWhere_armed hc harmed) harmed, hf.cursor⟩,
      .of_eq rfl⟩

/-! ### Every transaction -/

/-- The transactions that write `controller_leases` or `listener_coverage`. -/
def JournalOp.WritesFence : JournalOp → Prop
  | .expireStaleLeases .. => True
  | .renewActiveLease .. => True
  | .claimOrRenewLease .. => True
  | .releaseLease .. => True
  | .armListener .. => True
  | .exitListener .. => True
  | _ => False

theorem JournalOp.run_leaseFrame (h : op.run j = .ok j') (hop : ¬ op.WritesFence) :
    LeaseFrame j j' := by
  have hw := JournalOp.run_writes h
  cases op with
  | expireStaleLeases | renewActiveLease | claimOrRenewLease | releaseLease | armListener
  | exitListener => exact absurd trivial hop
  | prepareAttempt | rebindPreparedAttemptAccount | startAttempt | markAttemptRunning =>
    exact hw.attemptWrite.leaseFrame
  | recordOutboxProjectionFailure =>
    obtain ⟨i, hi, hmail⟩ := hw
    exact hi.leaseFrame.trans hmail.leaseFrame
  | _ => exact hw.leaseFrame

/-- **Step.**  Every transaction keeps the fence and moves leases only forward. -/
theorem JournalOp.keepsFence (h : op.run j = .ok j') :
    KeepsFence j j' := by
  cases op with
  | expireStaleLeases provenDead endedAt =>
    obtain ⟨v, hv⟩ := Tx.committed_eq_ok.mp h
    exact leaseRules_keeps.expireStaleLeases trivial hv
  | renewActiveLease label nonce generation deadline =>
    obtain ⟨v, hv⟩ := Tx.committed_eq_ok.mp h
    exact leaseRules_keeps.renewActiveLease hv
  | claimOrRenewLease claim =>
    obtain ⟨v, hv⟩ := Tx.committed_eq_ok.mp h
    exact leaseRules_keeps.claimOrRenewLease trivial hv
  | releaseLease label nonce reason now =>
    obtain ⟨v, hv⟩ := Tx.committed_eq_ok.mp h
    exact releaseLease_keeps hv
  | armListener label nonce pid startToken parentPid coverageId now =>
    obtain ⟨v, hv⟩ := Tx.committed_eq_ok.mp h
    exact armListener_keeps hv
  | exitListener coverageId reason itemId now =>
    obtain ⟨v, hv⟩ := Tx.committed_eq_ok.mp h
    exact leaseRules_keeps.exitListener trivial hv
  | _ => exact .of_frame (JournalOp.run_leaseFrame h id)

theorem Fenced.fresh : Fenced Journal.fresh where
  armed _ hc := absurd hc (Table.notMem_empty _)
  cursor _ hl := absurd hl (Table.notMem_empty _)

/-- **Run.**  The fence holds in every reachable state. -/
theorem Journal.Reachable.fenced (h : j.Reachable) : Fenced j := by
  obtain ⟨ops, rfl⟩ := h
  refine Machine.run_invariant (fun j op hj => ?_) Fenced.fresh ops
  exact Journal.step_of_run hj fun j' hrun => (JournalOp.keepsFence hrun).1 hj

/-- **Run.**  Leases only move forward over any run. -/
theorem Journal.leasesAdvance (j : Journal) (ops : List JournalOp) :
    LeasesAdvance j (Machine.run Journal.step j ops) := by
  refine Machine.run_relates LeasesAdvance.refl LeasesAdvance.trans (fun j op => ?_) j ops
  exact Journal.step_of_run (P := LeasesAdvance j) (.refl j)
    fun j' hrun => (JournalOp.keepsFence hrun).2

/-! ### The nonce gate -/

/-- The label and nonce a transaction offers as its authority. -/
def JournalOp.authority : JournalOp → Option (Label × String)
  | .renewActiveLease label nonce _ _ => some (label, nonce)
  | .releaseLease label nonce _ _ => some (label, nonce)
  | .armListener label nonce _ _ _ _ _ => some (label, nonce)
  | .advanceCursor label nonce _ _ _ _ false _ => nonce.map (label, ·)
  | _ => none

/-- The label is held by an `ACTIVE` lease with the nonce. -/
def Journal.HeldBy (j : Journal) (label : Label) (nonce : String) : Prop :=
  ∃ l ∈ j.leases, l.Active ∧ l.label = label ∧ l.nonce = nonce

theorem cursorGate_heldBy {c : ControllerCursor}
    (h : j.cursorGate label (some nonce) false now = .ok (c, j')) : j.HeldBy label nonce := by
  unfold Journal.cursorGate at h
  cases hlease : j.activeLease label with
  | none => simp [hlease] at h
  | some l =>
    simp only [hlease] at h
    split at h
    · cases h
    · rename_i hnonce
      obtain ⟨hl, hlabel, hactive⟩ := Journal.activeLease_eq_some.mp hlease
      refine ⟨l, hl, hactive, hlabel, ?_⟩
      simpa [eq_comm] using hnonce

theorem cursorGate_noLease {nonce : Option String} {c : ControllerCursor}
    (h : j.cursorGate label nonce true now = .ok (c, j')) : j.activeLease label = none := by
  unfold Journal.cursorGate at h
  cases hlease : j.activeLease label with
  | none => rfl
  | some l => simp [hlease] at h

theorem JournalOp.heldBy_of_authority (h : op.run j = .ok j')
    (hauth : op.authority = some (label, nonce)) :
    j.HeldBy label nonce := by
  cases op with
  | renewActiveLease label' nonce' generation deadline =>
    cases hauth
    obtain ⟨v, hv⟩ := Tx.committed_eq_ok.mp h
    unfold Journal.renewActiveLease at hv
    split at hv
    · cases hv
    · rename_i l hfind
      obtain ⟨hl, hp⟩ := Table.find?_eq_some hfind
      simp only [decide_eq_true_eq] at hp
      exact ⟨l, hl, hp.2.2.2, hp.1, hp.2.1⟩
  | releaseLease label' nonce' reason now =>
    cases hauth
    obtain ⟨v, hv⟩ := Tx.committed_eq_ok.mp h
    unfold Journal.releaseLease at hv
    split at hv
    · cases hv
    · rename_i l hfind
      obtain ⟨hl, hp⟩ := Table.find?_eq_some hfind
      simp only [decide_eq_true_eq] at hp
      exact ⟨l, hl, hp.2.2, hp.1, hp.2.1⟩
  | armListener label' nonce' pid startToken parentPid coverageId now =>
    cases hauth
    obtain ⟨v, hv⟩ := Tx.committed_eq_ok.mp h
    unfold Journal.armListener at hv
    split at hv
    · cases hv
    split at hv
    · cases hv
    rename_i l hlease
    split at hv
    · cases hv
    rename_i hnonce
    obtain ⟨hl, hlabel, hactive⟩ := Journal.activeLease_eq_some.mp hlease
    exact ⟨l, hl, hactive, hlabel, not_not.mp hnonce⟩
  | advanceCursor label' nonce' version snapshots advances actor allowNoLease now =>
    cases allowNoLease with
    | true => cases hauth
    | false =>
      obtain ⟨n, rfl, heq⟩ := Option.map_eq_some_iff.mp hauth
      cases heq
      obtain ⟨v, hv⟩ := Tx.committed_eq_ok.mp h
      obtain ⟨cursor, i, hgate, -⟩ := advanceCursor_eq_ok hv
      exact cursorGate_heldBy hgate
  | _ => cases hauth

instance (j : Journal) (label : Label) (nonce : String) : Decidable (j.HeldBy label nonce) := by
  unfold Journal.HeldBy
  infer_instance

/-- **Fencing.**  In every state of every run: a label has at most one `ACTIVE` lease;
armed coverage belongs to an `ACTIVE` lease, and an `ACTIVE` lease has a cursor of its own
generation; a generation has at most one armed coverage; from there on generations only
grow and ended leases stay as they are; a transaction that offers a nonce commits only
while that nonce holds the label; and the operator's cursor write, which offers none,
commits only while nobody holds the label. -/
theorem controllerLeases_fenced (ops : List JournalOp) :
    let j := Machine.run Journal.step Journal.fresh ops
    (∀ l ∈ j.leases, ∀ m ∈ j.leases, l.Active → m.Active → l.label = m.label → l = m) ∧
      Fenced j ∧
      (∀ c ∈ j.coverage, ∀ d ∈ j.coverage, c.Armed → d.Armed → c.label = d.label →
        c.leaseGeneration = d.leaseGeneration → c = d) ∧
      (∀ more, LeasesAdvance j (Machine.run Journal.step j more)) ∧
      (∀ (op : JournalOp) (j' : Journal) (label : Label) (nonce : String),
        op.run j = .ok j' → op.authority = some (label, nonce) →
        j.HeldBy label nonce) ∧
      ∀ label nonce version snapshots advances actor now r,
        j.advanceCursor label nonce version snapshots advances actor true now = .ok r →
          ∀ l ∈ j.leases, l.label = label → ¬ l.Active := by
  intro j
  refine ⟨?_, ?_, ?_, ?_, ?_, ?_⟩
  · intro l hl m hm hal ham hlabel
    exact Table.eq_of_not_compat hl hm (fun hc => hc.oneActive ⟨hal, ham, hlabel⟩)
      (fun hc => hc.oneActive ⟨ham, hal, hlabel.symm⟩)
  · exact Journal.Reachable.fenced ⟨ops, rfl⟩
  · intro c hc d hd hac had hlabel hgen
    exact Table.eq_of_not_compat hc hd (fun h => h.oneArmed ⟨hac, had, by rw [hlabel, hgen]⟩)
      (fun h => h.oneArmed ⟨had, hac, by rw [hlabel, hgen]⟩)
  · exact fun more => Journal.leasesAdvance j more
  · exact fun op j' label nonce h hauth => JournalOp.heldBy_of_authority h hauth
  · intro label nonce version snapshots advances actor now r h
    obtain ⟨v, j'⟩ := r
    obtain ⟨cursor, i, hgate, -⟩ := advanceCursor_eq_ok h
    exact Journal.activeLease_eq_none.mp (cursorGate_noLease hgate)

/-- The operator's cursor write may carry a nonce, and commits although no lease of the
label exists: the nonce is not compared with anything. -/
theorem advanceCursor_commits_with_stray_nonce :
    let event : EventId := ⟨"node", "e1"⟩
    let j := Machine.run Journal.step Journal.fresh
      [.recordDeliveryEvent ⟨.wildcard, event, "s", 1, "/c", "note", .waking, "t0"⟩ [] false
        "t0", .markDeliveryProjected .wildcard event "t1"]
    (j.advanceCursor "ctl" (some "stray") 0 ⟨[("s", "1:1")], by simp⟩ ⟨[("s", 1)], by simp⟩
      "operator" true "t2").isOk = true ∧ ¬ j.HeldBy "ctl" "stray" := by
  decide +kernel

end GoalFlight
