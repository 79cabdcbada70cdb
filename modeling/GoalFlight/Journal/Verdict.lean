import GoalFlight.Journal.Operation

/-!
# One terminal verdict per attempt

`Settled` relates the three tables of one state: the verdict of an ended attempt is a
recorded transition with an event in the outbox.  `VerdictsAdvance` relates the attempts
of an earlier and a later state: no attempt is lost, a live attempt only moves forward,
and a verdict is replaced only by an explicit withdrawal of a presumed death.
-/

namespace GoalFlight

open Relational

variable {attemptId : String} {j j' : Journal} {now : Timestamp} {v : TerminalCommit}
  {a : DispatchAttempt} {q : TerminalRequest}

variable {dispatchId : String} {op : JournalOp}

/-! ### How an attempt moves -/

/-- `PREPARED`, `STARTING`, `RUNNING` in this order. -/
def LiveState.rank : LiveState → ℕ
  | .prepared => 0
  | .starting => 1
  | .running => 2

/-- A verdict that only presumes the worker dead may be withdrawn. -/
def TerminalColumns.ReplacedBy (t t' : TerminalColumns) : Prop :=
  t'.terminalState ∈ ["superseded", "withdrawn"] ∧
    t.terminalState ∈ ["worker_dead", "stale_dead", "abandoned"]

/-- Where an attempt's lifecycle can lead. -/
def Lifecycle.LeadsTo : Lifecycle → Lifecycle → Prop
  | .live s, .live s' => s.rank ≤ s'.rank
  | .live _, .final _ => True
  | .final _, .live _ => False
  | .final t, .final t' => t' = t ∨ t.ReplacedBy t'

theorem Lifecycle.LeadsTo.refl (c : Lifecycle) : c.LeadsTo c := by
  cases c with
  | live s => exact le_refl s.rank
  | final t => exact .inl rfl

theorem Lifecycle.LeadsTo.rank_le {s s' : LiveState}
    (h : (Lifecycle.live s).LeadsTo (.live s')) : s.rank ≤ s'.rank := h

theorem Lifecycle.LeadsTo.trans {c₁ c₂ c₃ : Lifecycle} (h₁ : c₁.LeadsTo c₂)
    (h₂ : c₂.LeadsTo c₃) : c₁.LeadsTo c₃ := by
  cases c₁ with
  | live s₁ =>
    cases c₃ with
    | final t₃ => exact trivial
    | live s₃ =>
      cases c₂ with
      | live s₂ => exact le_trans h₁ h₂
      | final t₂ => exact h₂.elim
  | final t₁ =>
    cases c₂ with
    | live s₂ => exact h₁.elim
    | final t₂ =>
      cases c₃ with
      | live s₃ => exact h₂.elim
      | final t₃ =>
        rcases h₁ with rfl | ⟨hnew, hold⟩
        · exact h₂
        · rcases h₂ with rfl | ⟨-, hdead⟩
          · exact .inr ⟨hnew, hold⟩
          · simp only [List.mem_cons, List.not_mem_nil, or_false] at hnew hdead
            rcases hnew with h | h <;> simp [h] at hdead

/-- The same attempt, later. -/
structure DispatchAttempt.LeadsTo (a a' : DispatchAttempt) : Prop where
  attemptId : a'.attemptId = a.attemptId
  dispatchId : a'.dispatchId = a.dispatchId
  lifecycle : a.lifecycle.LeadsTo a'.lifecycle

theorem DispatchAttempt.LeadsTo.refl (a : DispatchAttempt) : a.LeadsTo a :=
  ⟨rfl, rfl, .refl _⟩

/-! ### The two properties -/

/-- The relation between attempts, transitions and the outbox in one state. -/
def Settled (j : Journal) : Prop :=
  ∀ a ∈ j.attempts, ∀ t, a.lifecycle = .final t →
    (∃ r ∈ j.transitions, r.attemptId = a.attemptId ∧ r.transitionId = t.transitionId) ∧
      ∃ o ∈ j.outbox, o.attemptId = a.attemptId ∧ o.transitionId = t.transitionId

/-- The relation between the attempts of an earlier and a later state. -/
def VerdictsAdvance (j j' : Journal) : Prop :=
  ∀ a ∈ j.attempts, ∃ a' ∈ j'.attempts, a.LeadsTo a'

theorem VerdictsAdvance.refl (j : Journal) : VerdictsAdvance j j :=
  fun a ha => ⟨a, ha, .refl a⟩

theorem VerdictsAdvance.trans {j₁ j₂ j₃ : Journal} (h₁ : VerdictsAdvance j₁ j₂)
    (h₂ : VerdictsAdvance j₂ j₃) : VerdictsAdvance j₁ j₃ := by
  intro a ha
  obtain ⟨b, hb, hab⟩ := h₁ a ha
  obtain ⟨c, hc, hbc⟩ := h₂ b hb
  exact ⟨c, hc, hbc.attemptId.trans hab.attemptId, hbc.dispatchId.trans hab.dispatchId,
    hab.lifecycle.trans hbc.lifecycle⟩

/-- A transaction that settles what it ends and moves attempts only forward. -/
def KeepsVerdicts (j j' : Journal) : Prop := (Settled j → Settled j') ∧ VerdictsAdvance j j'

theorem KeepsVerdicts.trans {j₁ j₂ j₃ : Journal} (h₁ : KeepsVerdicts j₁ j₂)
    (h₂ : KeepsVerdicts j₂ j₃) : KeepsVerdicts j₁ j₃ :=
  ⟨fun h => h₂.1 (h₁.1 h), h₁.2.trans h₂.2⟩

/-! ### Transactions that leave verdicts alone -/

theorem KeepsVerdicts.of_frame (ha : j'.attempts = j.attempts)
    (ht : j'.transitions = j.transitions)
    (ho : ∀ o ∈ j.outbox, ∃ o' ∈ j'.outbox, o'.key = o.key) : KeepsVerdicts j j' := by
  refine ⟨fun hs a hmem t hfinal => ?_, fun a hmem => ⟨a, by rwa [ha], .refl a⟩⟩
  rw [ha] at hmem
  rw [ht]
  obtain ⟨htransition, o, hmem', hattempt, htid⟩ := hs a hmem t hfinal
  obtain ⟨o', hmem'', hkey⟩ := ho o hmem'
  obtain ⟨hkey₁, hkey₂⟩ := Prod.mk.injEq _ _ _ _ ▸ hkey
  exact ⟨htransition, o', hmem'', hkey₁.trans hattempt, hkey₂.trans htid⟩

theorem KeepsVerdicts.of_same (ha : j'.attempts = j.attempts)
    (ht : j'.transitions = j.transitions) (ho : j'.outbox = j.outbox) : KeepsVerdicts j j' :=
  .of_frame ha ht fun o hmem => ⟨o, by rwa [ho], rfl⟩

theorem markOutboxProjected_keeps {row : TerminalOutboxRow} {u : Unit}
    (h : j.markOutboxProjected row now = .ok (u, j')) :
    KeepsVerdicts j j' := by
  unfold Journal.markOutboxProjected at h
  split at h
  · cases h
  · cases h
    exact .of_frame rfl rfl fun o ho =>
      (exists_mem_modifyWhere ho).imp fun _ h => ⟨h.1, h.2.1⟩

theorem recordOutboxProjectionFailure_keeps {row : TerminalOutboxRow} {error : String}
    {retryAt : Timestamp} {quarantined : Bool}
    (h : j.recordOutboxProjectionFailure row error now retryAt = .ok (quarantined, j')) :
    KeepsVerdicts j j' := by
  obtain ⟨retry, quarantine, i, hi, hj'⟩ := recordOutboxProjectionFailure_eq_ok h
  have hframe : KeepsVerdicts j i := by
    rw [hi]
    exact .of_frame rfl rfl fun o ho =>
      (exists_mem_modifyWhere ho).imp fun _ h => ⟨h.1, h.2.1⟩
  rcases hj' with rfl | ⟨item, carrierPath, rfl⟩
  · exact hframe
  · have hmail := raiseSystemAttention_write i item carrierPath now
    exact hframe.trans (.of_same hmail.sameAttempts.attempts hmail.sameAttempts.transitions
      hmail.sameStreams.outbox)

/-! ### Moving a live attempt -/

/-- **What a transaction on a live attempt does**: live attempts move forward or are added,
and nothing else changes. -/
structure LiveWrite (j j' : Journal) : Prop where
  rest : AttemptsOnly j j'
  finals : ∀ b ∈ j'.attempts, ∀ t, b.lifecycle = .final t → b ∈ j.attempts
  advance : VerdictsAdvance j j'

theorem LiveWrite.keepsVerdicts (h : LiveWrite j j') : KeepsVerdicts j j' := by
  obtain ⟨attempts, rfl⟩ := h.rest
  exact ⟨fun hs b hb t hfinal => hs b (h.finals b hb t hfinal) t hfinal, h.advance⟩

theorem LiveWrite.modify {p : DispatchAttempt → Prop} [DecidablePred p]
    {f : DispatchAttempt → DispatchAttempt} (hf : ∀ a, p a → (f a).SameKeys a)
    (hlead : ∀ a, p a → ∃ s s', a.lifecycle = .live s ∧ (f a).lifecycle = .live s' ∧
      s.rank ≤ s'.rank) :
    LiveWrite j { j with attempts := j.attempts.modifyWhere p f hf } := by
  refine ⟨⟨_, rfl⟩, fun b hb t hfinal => ?_, fun a ha => ⟨_, Table.apply_mem rfl ha, ?_⟩⟩
  · obtain ⟨a, ha, rfl⟩ := Table.exists_of_mem hb rfl
    split at hfinal
    · obtain ⟨s, s', -, hlive, -⟩ := hlead a ‹_›
      rw [hlive] at hfinal
      cases hfinal
    · rwa [if_neg ‹_›]
  · split
    · obtain ⟨hid, hdispatch, -⟩ := hf a ‹_›
      obtain ⟨s, s', hs, hs', hrank⟩ := hlead a ‹_›
      refine ⟨hid, hdispatch, ?_⟩
      rw [hs, hs']
      exact hrank
    · exact .refl a

theorem prepareAttempt_live {q : AttemptRequest} {v : AttemptIdentity}
    (h : j.prepareAttempt q = .ok (v, j')) : LiveWrite j j' := by
  unfold Journal.prepareAttempt at h
  split at h
  · cases h
  split at h
  · cases h
  split at h
  · cases h
  split at h
  · split at h
    · cases h
    · cases h
      exact .modify _ fun a ha => ⟨.prepared, .prepared, ha.2, ha.2, le_refl _⟩
  · split at h
    · cases h
    · rename_i attempts hinsert
      cases h
      refine ⟨⟨_, rfl⟩, fun a ha t hfinal => ?_, fun a ha => ⟨a, ?_, .refl a⟩⟩
      · rcases (Table.mem_of_insert? hinsert).mp ha with ha | rfl
        · exact ha
        · cases hfinal
      · exact (Table.mem_of_insert? hinsert).mpr (.inl ha)

theorem rebindPreparedAttemptAccount_live {account : String} {expected engine : Option String}
    {v : AttemptIdentity}
    (h : j.rebindPreparedAttemptAccount dispatchId expected account engine = .ok (v, j')) :
    LiveWrite j j' := by
  unfold Journal.rebindPreparedAttemptAccount at h
  split at h
  · cases h
  split at h
  · cases h
  split at h
  · cases h
  split at h
  · cases h
  split at h
  · cases h
  · cases h
    exact .modify _ fun a ha => ⟨.prepared, .prepared, ha.2.1, ha.2.1, le_refl _⟩

theorem startAttempt_live {launchToken : String} {epoch : ℕ} {startDeadline : Timestamp}
    {v : AttemptIdentity}
    (h : j.startAttempt attemptId launchToken epoch now startDeadline = .ok (v, j')) :
    LiveWrite j j' := by
  unfold Journal.startAttempt at h
  simp only at h
  split at h
  · cases h
  · cases h
    exact .modify _ fun a ha => ⟨.prepared, .starting, ha.2.2.1, rfl, by decide⟩

theorem markAttemptRunning_live {launchToken : String} {launchEpoch : ℕ}
    {workerInstance : String} {v : AttemptIdentity}
    (h : j.markAttemptRunning attemptId launchToken launchEpoch workerInstance now =
      .ok (v, j')) : LiveWrite j j' := by
  unfold Journal.markAttemptRunning at h
  simp only at h
  split at h
  · cases h
  split at h
  · cases h
  · cases h
    exact .modify _ fun a ha => ⟨.starting, .running, ha.2.2.1, rfl, by decide⟩

/-! ### Ending an attempt -/

theorem Journal.attempt_eq_some :
    j.attempt attemptId = some a ↔ a ∈ j.attempts ∧ a.attemptId = attemptId := by
  constructor
  · intro h
    simpa using Table.find?_eq_some h
  · rintro ⟨ha, rfl⟩
    refine Table.find?_eq_of_unique ha (by simp) fun b hb hp => ?_
    have hid : b.attemptId = a.attemptId := by simpa using hp
    exact Table.eq_of_not_compat hb ha (fun hc => hc.key hid) (fun hc => hc.key hid.symm)

theorem Journal.outboxRow_eq_some {transitionId : String} {o : TerminalOutboxRow}
    (h : j.outboxRow attemptId transitionId = some o) :
    o ∈ j.outbox ∧ o.attemptId = attemptId ∧ o.transitionId = transitionId := by
  simpa using Table.find?_eq_some h

theorem writeVerdict_eq_ok (h : j.writeVerdict q a = .ok (v, j')) :
    (∀ d ∈ q.deadlineAtOrBefore, TerminalRequest.Expired a d) ∧
      v = ⟨q.attemptId, q.transitionId, a.dispatchId, q.terminalState, q.event.eventUuid,
        q.resolvedEventType, q.observation, q.now, false⟩ ∧
      j'.attempts.rows = j.attempts.rows.map (fun b =>
        if b.attemptId = q.attemptId ∧
            ∀ d ∈ q.deadlineAtOrBefore, TerminalRequest.Expired b d then
          { b with lifecycle := .final q.terminalColumns, stateUpdatedAt := q.now }
        else b) ∧
      j.transitions.insert? (q.transition a) = some j'.transitions ∧
      j.outbox.insert? (q.outboxRow a) = some j'.outbox := by
  unfold Journal.writeVerdict at h
  simp only at h
  split at h
  · cases h
  rename_i hupdated
  split at h
  · cases h
  rename_i attempts hattempts
  split at h
  · cases h
  rename_i transitions htransitions
  split at h
  · cases h
  rename_i outbox houtbox
  cases h
  exact ⟨(not_not.mp hupdated).2, rfl, Table.update?_eq_some hattempts, htransitions, houtbox⟩

theorem writeVerdict_holds (ha : j.attempt q.attemptId = some a)
    (h : j.writeVerdict q a = .ok (v, j')) :
    ∃ a' ∈ j'.attempts, a'.attemptId = q.attemptId ∧
      a'.lifecycle = .final q.terminalColumns := by
  obtain ⟨hmem, hid⟩ := Journal.attempt_eq_some.mp ha
  obtain ⟨hexpired, -, hrows, -, -⟩ := writeVerdict_eq_ok h
  refine ⟨_, Table.apply_mem hrows hmem, ?_⟩
  rw [if_pos ⟨hid, hexpired⟩]
  exact ⟨hid, rfl⟩

theorem writeVerdict_keeps (ha : j.attempt q.attemptId = some a)
    (hlive : (∃ s, a.lifecycle = .live s) ∨ q.Supersedes a)
    (h : j.writeVerdict q a = .ok (v, j')) : KeepsVerdicts j j' := by
  obtain ⟨hexpired, -, hrows, htransitions, houtbox⟩ := writeVerdict_eq_ok h
  have hnewTransition := (Table.mem_of_insert? htransitions).mpr (.inr rfl)
  have hnewRow := (Table.mem_of_insert? houtbox).mpr (.inr rfl)
  refine ⟨fun hs b hb t hfinal => ?_, fun b hb => ⟨_, Table.apply_mem hrows hb, ?_⟩⟩
  · obtain ⟨c, hc, rfl⟩ := Table.exists_of_mem hb hrows
    split at hfinal
    · rename_i hsel
      cases hfinal
      rw [if_pos hsel]
      exact ⟨⟨_, hnewTransition, hsel.1.symm, rfl⟩, _, hnewRow, hsel.1.symm, rfl⟩
    · rw [if_neg ‹_›]
      obtain ⟨⟨r, hr, hrest⟩, o, ho, hrest'⟩ := hs c hc t hfinal
      exact ⟨⟨r, (Table.mem_of_insert? htransitions).mpr (.inl hr), hrest⟩,
        o, (Table.mem_of_insert? houtbox).mpr (.inl ho), hrest'⟩
  · split
    · rename_i hsel
      obtain rfl : b = a := by
        have hb' : j.attempt q.attemptId = some b := Journal.attempt_eq_some.mpr ⟨hb, hsel.1⟩
        exact Option.some.inj (hb'.symm.trans ha)
      refine ⟨rfl, rfl, ?_⟩
      rcases hlive with ⟨s, hs⟩ | ⟨t, ht, -, hnew, hold⟩
      · rw [hs]
        exact trivial
      · cases hcycle : b.lifecycle with
        | live s => exact trivial
        | final t' =>
          rw [hcycle] at ht
          cases ht
          exact .inr ⟨hnew, hold⟩
    · exact .refl b

theorem commitTerminal_keeps (h : j.commitTerminal q = .ok (v, j')) : KeepsVerdicts j j' := by
  obtain ⟨a, ha, -, ⟨hwrite, hlive⟩ | ⟨t, -, -, hstanding⟩⟩ := commitTerminal_cases h
  · exact writeVerdict_keeps ha hlive hwrite
  · obtain ⟨rfl, -⟩ := standingVerdict_eq_ok hstanding
    exact .of_same rfl rfl rfl

theorem commitTerminal_answer (h : j.commitTerminal q = .ok (v, j')) :
    ∃ a ∈ j'.attempts, a.attemptId = q.attemptId ∧ ∃ t, a.lifecycle = .final t ∧
      t.transitionId = v.transitionId ∧ t.terminalState = v.terminalState ∧
      ∃ o ∈ j'.outbox, o.attemptId = a.attemptId ∧ o.transitionId = t.transitionId ∧
        o.event.eventUuid = v.eventUuid := by
  obtain ⟨a, ha, -, ⟨hwrite, -⟩ | ⟨t, hfinal, -, hstanding⟩⟩ := commitTerminal_cases h
  · obtain ⟨a', ha', hid, hcycle⟩ := writeVerdict_holds ha hwrite
    obtain ⟨-, rfl, -, -, houtbox⟩ := writeVerdict_eq_ok hwrite
    have hrow := (Table.mem_of_insert? houtbox).mpr (.inr rfl)
    exact ⟨a', ha', hid, _, hcycle, rfl, rfl, _, hrow, hid.symm, rfl, rfl⟩
  · obtain ⟨rfl, o, ho, rfl⟩ := standingVerdict_eq_ok hstanding
    obtain ⟨hmem, hid⟩ := Journal.attempt_eq_some.mp ha
    obtain ⟨homem, hoid, hotid⟩ := Journal.outboxRow_eq_some ho
    exact ⟨a, hmem, hid, t, hfinal, rfl, rfl, o, homem, hoid, hotid, rfl⟩

/-! ### Every transaction -/

/-- The transactions on a live attempt. -/
def JournalOp.MovesAttempt : JournalOp → Prop
  | .prepareAttempt .. | .rebindPreparedAttemptAccount .. | .startAttempt ..
  | .markAttemptRunning .. => True
  | _ => False

theorem JournalOp.run_liveWrite (h : op.run j = .ok j') (hop : op.MovesAttempt) :
    LiveWrite j j' := by
  cases op <;> obtain ⟨v, hv⟩ := Tx.committed_eq_ok.mp h
  case prepareAttempt => exact prepareAttempt_live hv
  case rebindPreparedAttemptAccount => exact rebindPreparedAttemptAccount_live hv
  case startAttempt => exact startAttempt_live hv
  case markAttemptRunning => exact markAttemptRunning_live hv
  all_goals exact hop.elim

/-- **Step.**  Every transaction settles what it ends and moves attempts only forward. -/
theorem JournalOp.keepsVerdicts (h : op.run j = .ok j') :
    KeepsVerdicts j j' := by
  cases op with
  | prepareAttempt | rebindPreparedAttemptAccount | startAttempt | markAttemptRunning =>
    exact (JournalOp.run_liveWrite h trivial).keepsVerdicts
  | commitTerminal =>
    obtain ⟨v, hv⟩ := Tx.committed_eq_ok.mp h
    exact commitTerminal_keeps hv
  | markOutboxProjected =>
    obtain ⟨v, hv⟩ := Tx.committed_eq_ok.mp h
    exact markOutboxProjected_keeps hv
  | recordOutboxProjectionFailure =>
    obtain ⟨v, hv⟩ := Tx.committed_eq_ok.mp h
    exact recordOutboxProjectionFailure_keeps hv
  | _ =>
    have hsame := JournalOp.run_sameAttempts h id
    exact .of_same hsame.attempts hsame.transitions (JournalOp.run_outbox h id)

theorem Settled.fresh : Settled Journal.fresh :=
  fun _ ha => absurd ha (Table.notMem_empty _)

/-- **Run.**  Every reachable state is settled. -/
theorem Journal.Reachable.settled (h : j.Reachable) : Settled j := by
  obtain ⟨ops, rfl⟩ := h
  refine Machine.run_invariant (fun j op hj => ?_) Settled.fresh ops
  exact Journal.step_of_run hj fun j' hrun => (JournalOp.keepsVerdicts hrun).1 hj

theorem Journal.step_verdictsAdvance (j : Journal) (op : JournalOp) :
    VerdictsAdvance j (j.step op) :=
  Journal.step_of_run (P := VerdictsAdvance j) (.refl j)
    fun _ hrun => (JournalOp.keepsVerdicts hrun).2

/-- **Run.**  Attempts only move forward over any run. -/
theorem Journal.verdictsAdvance (j : Journal) (ops : List JournalOp) :
    VerdictsAdvance j (Machine.run Journal.step j ops) :=
  Machine.run_relates VerdictsAdvance.refl VerdictsAdvance.trans
    Journal.step_verdictsAdvance j ops

/-! ### One start -/

/-- The transaction commits a start of the dispatch. -/
def JournalOp.Starts (dispatchId : String) (j : Journal) : JournalOp → Prop
  | .startAttempt attemptId launchToken epoch now startDeadline =>
    match j.startAttempt attemptId launchToken epoch now startDeadline with
    | .ok (v, _) => v.dispatchId = dispatchId
    | .error _ => False
  | _ => False

instance (dispatchId : String) (j : Journal) (op : JournalOp) :
    Decidable (op.Starts dispatchId j) := by
  unfold JournalOp.Starts
  split
  · split <;> infer_instance
  · infer_instance

/-- An attempt of the dispatch has left `PREPARED`. -/
def Journal.Launched (j : Journal) (dispatchId : String) : Prop :=
  ∃ a ∈ j.attempts, a.dispatchId = dispatchId ∧ a.lifecycle ≠ .live .prepared

instance (j : Journal) (dispatchId : String) : Decidable (j.Launched dispatchId) := by
  unfold Journal.Launched
  infer_instance

/-- The starts a dispatch has left. -/
def Journal.startsLeft (dispatchId : String) (j : Journal) : ℕ :=
  if j.Launched dispatchId then 0 else 1

theorem Journal.Launched.step (h : j.Launched dispatchId) (op : JournalOp) :
    (j.step op).Launched dispatchId := by
  obtain ⟨a, ha, hdispatch, hnot⟩ := h
  obtain ⟨a', ha', hlead⟩ := Journal.step_verdictsAdvance j op a ha
  refine ⟨a', ha', hlead.dispatchId.trans hdispatch, fun hprepared => ?_⟩
  have hcycle := hlead.lifecycle
  rw [hprepared] at hcycle
  cases hold : a.lifecycle with
  | final t =>
    rw [hold] at hcycle
    exact hcycle
  | live s =>
    rw [hold] at hcycle
    cases s with
    | prepared => exact hnot hold
    | starting => exact absurd hcycle.rank_le (by decide)
    | running => exact absurd hcycle.rank_le (by decide)

theorem JournalOp.Starts.launches (h : op.Starts dispatchId j) :
    ¬ j.Launched dispatchId ∧ (j.step op).Launched dispatchId := by
  cases op with
  | startAttempt attemptId launchToken epoch now startDeadline =>
    have hstart : ∃ v j', j.startAttempt attemptId launchToken epoch now startDeadline =
        .ok (v, j') ∧ v.dispatchId = dispatchId := by
      simp only [JournalOp.Starts] at h
      split at h
      · exact ⟨_, _, ‹_›, h⟩
      · exact h.elim
    obtain ⟨v, j', hcommit, hdispatch⟩ := hstart
    have hstep : j.step (.startAttempt attemptId launchToken epoch now startDeadline) =
        j' := by
      simp only [Journal.step, JournalOp.run, hcommit, Tx.committed, Except.map]
    rw [hstep]
    unfold Journal.startAttempt at hcommit
    simp only at hcommit
    split at hcommit
    · cases hcommit
    rename_i a hfind
    cases hcommit
    obtain ⟨ha, hclaimed⟩ := Table.find?_eq_some hfind
    simp only [decide_eq_true_eq] at hclaimed
    refine ⟨?_, _, Table.apply_mem rfl ha, ?_⟩
    · rintro ⟨b, hb, hbd, hnot⟩
      obtain rfl : b = a := by
        have hsame : b.dispatchId = a.dispatchId := hbd.trans hdispatch.symm
        exact Table.eq_of_not_compat hb ha (fun hc => hc.dispatch hsame)
          (fun hc => hc.dispatch hsame.symm)
      exact hnot hclaimed.2.2.1
    · rw [if_pos hclaimed]
      exact ⟨hdispatch, by simp⟩
  | _ => exact h.elim

theorem Journal.startsLeft_step (dispatchId : String) (j : Journal) (op : JournalOp) :
    (if op.Starts dispatchId j then 1 else 0) + (j.step op).startsLeft dispatchId ≤
      j.startsLeft dispatchId := by
  unfold Journal.startsLeft
  by_cases hstart : op.Starts dispatchId j
  · obtain ⟨hbefore, hafter⟩ := hstart.launches
    simp [hstart, hbefore, hafter]
  · rw [if_neg hstart]
    by_cases hlaunched : j.Launched dispatchId
    · simp [hlaunched, hlaunched.step op]
    · rw [if_neg hlaunched]
      split <;> omega

/-! ### The launch deadline -/

/-- A committed `commit_expired_attempt` changed nothing, or ended an attempt that was
still waiting for a worker after its deadline. -/
theorem commitExpired_cases {observedAt : Timestamp}
    {terminalState observation transitionId : String} {event : EventId}
    (h : j.commitTerminal (.expired attemptId observedAt terminalState observation
      transitionId event now) = .ok (v, j')) :
    j' = j ∨ ∃ a ∈ j.attempts, a.attemptId = attemptId ∧
      TerminalRequest.Expired a observedAt := by
  obtain ⟨a, ha, -, ⟨hwrite, -⟩ | ⟨t, -, -, hstanding⟩⟩ := commitTerminal_cases h
  · obtain ⟨hmem, hid⟩ := Journal.attempt_eq_some.mp ha
    obtain ⟨hexpired, -⟩ := writeVerdict_eq_ok hwrite
    exact .inr ⟨a, hmem, hid, hexpired observedAt rfl⟩
  · exact .inl (standingVerdict_eq_ok hstanding).1

theorem never_ran_of_expired {ops : List JournalOp} {b : DispatchAttempt}
    {observedAt : Timestamp} (hb : b ∈ j.attempts)
    (ha : a ∈ (Machine.run Journal.step j ops).attempts) (hid : b.attemptId = a.attemptId)
    (hexpired : TerminalRequest.Expired a observedAt) : b.lifecycle ≠ .live .running := by
  intro hrunning
  obtain ⟨b', hb', hlead⟩ := Journal.verdictsAdvance j ops b hb
  have hsame : b'.attemptId = a.attemptId := hlead.attemptId.trans hid
  obtain rfl : b' = a := Table.eq_of_not_compat hb' ha (fun hc => hc.key hsame)
    (fun hc => hc.key hsame.symm)
  have hcycle := hlead.lifecycle
  rw [hrunning] at hcycle
  rcases hexpired.1 with hstate | hstate
  · rw [hstate] at hcycle
    exact absurd hcycle.rank_le (by decide)
  · rw [hstate] at hcycle
    exact absurd hcycle.rank_le (by decide)

/-! ### The verdict theorem -/

/-- The attempt's verdict names a recorded transition with exactly one outbox row. -/
def Journal.VerdictOnRecord (j : Journal) (a : DispatchAttempt) : Prop :=
  ∃ tid, a.terminalTransitionId = some tid ∧
    ∃ r ∈ j.transitions, r.attemptId = a.attemptId ∧ r.transitionId = tid ∧
      ∃! o, o ∈ j.outbox ∧ o.attemptId = r.attemptId ∧ o.transitionId = r.transitionId

theorem Settled.verdictOnRecord_iff (hs : Settled j) (ha : a ∈ j.attempts) :
    (∃ s, a.lifecycle.state = .final s) ↔ j.VerdictOnRecord a := by
  constructor
  · rintro ⟨s, hstate⟩
    cases hcycle : a.lifecycle with
    | live s' =>
      rw [hcycle] at hstate
      cases hstate
    | final t =>
      obtain ⟨⟨r, hr, hrid, hrtid⟩, o, ho, hoid, hotid⟩ := hs a ha t hcycle
      refine ⟨t.transitionId, by simp [DispatchAttempt.terminalTransitionId, hcycle,
        Lifecycle.terminal?], r, hr, hrid, hrtid, o,
        ⟨ho, hoid.trans hrid.symm, hotid.trans hrtid.symm⟩, ?_⟩
      rintro o' ⟨ho', hoid', hotid'⟩
      have hkey : o'.key = o.key :=
        Prod.ext (hoid'.trans (hrid.trans hoid.symm)) (hotid'.trans (hrtid.trans hotid.symm))
      exact Table.eq_of_not_compat ho' ho (fun hc => hc.key hkey)
        (fun hc => hc.key hkey.symm)
  · rintro ⟨tid, htid, -⟩
    cases hcycle : a.lifecycle with
    | live s =>
      simp [DispatchAttempt.terminalTransitionId, hcycle, Lifecycle.terminal?] at htid
    | final t => exact ⟨t.state, rfl⟩

/-- **One verdict.**  In every run at most one start of a dispatch commits, and in every
state it reaches: an attempt has ended exactly when its verdict is on record; a commit
answers with the verdict the attempt then holds, and changes nothing when there was one
and the commit is no withdrawal of it; from there on attempts only move forward, a
verdict giving way to a withdrawal of a presumed death alone; and
`commit_expired_attempt` ends only an attempt that never ran and whose deadline has
passed. -/
theorem attempts_haveOneVerdict (ops : List JournalOp) :
    let j := Machine.run Journal.step Journal.fresh ops
    (∀ dispatchId, Machine.count Journal.step (fun j op => op.Starts dispatchId j)
      Journal.fresh ops ≤ 1) ∧
    (∀ a ∈ j.attempts, (∃ s, a.lifecycle.state = .final s) ↔ j.VerdictOnRecord a) ∧
    (∀ q v j', j.commitTerminal q = .ok (v, j') →
      (∃ a ∈ j'.attempts, a.attemptId = q.attemptId ∧ ∃ t, a.lifecycle = .final t ∧
        t.transitionId = v.transitionId ∧ t.terminalState = v.terminalState ∧
        ∃ o ∈ j'.outbox, o.attemptId = a.attemptId ∧ o.transitionId = t.transitionId ∧
          o.event.eventUuid = v.eventUuid) ∧
      ∀ a ∈ j.attempts, a.attemptId = q.attemptId → (∃ t, a.lifecycle = .final t) →
        ¬ q.Supersedes a → j' = j) ∧
    (∀ more, VerdictsAdvance j (Machine.run Journal.step j more)) ∧
    ∀ attemptId observedAt terminalState observation transitionId event now v j',
      j.commitTerminal (.expired attemptId observedAt terminalState observation
        transitionId event now) = .ok (v, j') →
      j' = j ∨ ∃ a ∈ j.attempts, a.attemptId = attemptId ∧
        TerminalRequest.Expired a observedAt ∧
        ∀ before after, ops = before ++ after →
          ∀ b ∈ (Machine.run Journal.step Journal.fresh before).attempts,
            b.attemptId = attemptId → b.lifecycle ≠ .live .running := by
  intro j
  refine ⟨fun dispatchId => ?_, fun a ha => ?_, fun q v j' h => ⟨commitTerminal_answer h, ?_⟩,
    Journal.verdictsAdvance j, fun attemptId observedAt _ _ _ _ _ v j' h => ?_⟩
  · refine (Machine.count_le_potential (Journal.startsLeft_step dispatchId) _ ops).trans ?_
    unfold Journal.startsLeft
    split <;> omega
  · exact (Journal.Reachable.settled ⟨ops, rfl⟩).verdictOnRecord_iff ha
  · rintro a ha hid ⟨t, hfinal⟩ hsup
    obtain ⟨b, hb, -, ⟨-, hlive⟩ | ⟨t', -, -, hstanding⟩⟩ := commitTerminal_cases h
    · obtain rfl : a = b :=
        Option.some.inj ((Journal.attempt_eq_some.mpr ⟨ha, hid⟩).symm.trans hb)
      rcases hlive with ⟨s, hs⟩ | hs
      · rw [hs] at hfinal
        cases hfinal
      · exact absurd hs hsup
    · exact (standingVerdict_eq_ok hstanding).1
  · rcases commitExpired_cases h with hsame | ⟨a, ha, hid, hexpired⟩
    · exact .inl hsame
    · refine .inr ⟨a, ha, hid, hexpired, fun before after hsplit b hb hbid => ?_⟩
      subst hsplit
      have ha' : a ∈ (Machine.run Journal.step
          (Machine.run Journal.step Journal.fresh before) after).attempts := by
        rw [← Machine.run_append]
        exact ha
      exact never_ran_of_expired hb ha' (hbid.trans hid.symm) hexpired

end GoalFlight
