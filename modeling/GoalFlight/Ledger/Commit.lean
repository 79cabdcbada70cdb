import GoalFlight.Dispatch.Reconcile
import GoalFlight.Journal.Verdict

/-!
# Ledger: committing a terminal state

`commit_terminal_authority` looks up the attempt of a dispatch, prepares one where there is
none, and commits the terminal state to it: two transactions.  `exists_commitTerminalAuthority`
has both go through when the values that they draw are new.
-/

namespace GoalFlight.Ledger

open Json GoalFlight.Dispatch Relational

variable {a : DispatchAttempt}

/-! ### Transactions -/

/-- What a transaction answers, and the journal that it leaves. -/
def runTx {α : Type} (j : Journal) (x : Tx α) : Except Abort α × Journal :=
  match x with
  | .ok (v, j') => (.ok v, j')
  | .error e => (.error e, j)

/-- The values that a commit draws: UUIDs, the host name and the clock. -/
structure Draws where
  freshAttemptId : String
  freshToken : String
  transitionId : String
  event : EventId
  now : Timestamp
  defaultDeadline : Timestamp

/-- What the commits of a process read beside the journal. -/
structure CommitEnv where
  /-- The JSON text of an observation, redacted. -/
  render : Value → String
  /-- `controller_session_digest`. -/
  sessionDigest : String → String
  /-- `parse_utc`. -/
  stampOf : Timestamp → Stamp := fun _ => .unreadable

/-- What a commit is asked for. -/
structure Ending where
  state : String
  terminalState : String
  reason : Value
  workerStillAlive : Value := .null
  headline : Option String := none
  prelaunchFailure : Option Bool := none

/-- `failure_envelope`, or `{}`. -/
def failureEnvelope (reason : Value) : Value :=
  match reason with
  | .obj _ | .arr _ => .obj [("error", reason)]
  | .str s => if s = "" then .obj [] else .obj [("reason", .str s)]
  | .null => .obj []
  | v => .obj [("reason", .str (String.ofList (dumps v)))]

namespace Ending

/-- `terminal_state or terminal_state_for(state, reason)`. -/
def resolved (e : Ending) : String :=
  if e.terminalState ≠ "" then e.terminalState
  else Capacity.terminalStateFor e.state (textOf e.reason)

/-- The observation, before it is redacted. -/
def observation (e : Ending) : Value :=
  .obj ([("state", .str e.state), ("terminal_state", .str e.resolved),
      ("outcome", failureEnvelope e.reason), ("worker_still_alive", e.workerStillAlive)] ++
    (((e.headline.map Capacity.strip).filter (· ≠ "")).map fun h => ("headline", .str h)).toList ++
    (e.prelaunchFailure.map fun b => ("prelaunch_failure", .bool b)).toList)

/-- The type of the event. -/
def eventType (e : Ending) : String :=
  let markerKind := e.reason.get "marker_kind"
  if markerKind = .str "USER-NEED" then "user_need"
  else if markerKind = .str "USER-CONFIRM" then "user_confirm"
  else if e.resolved = "complete" then "result"
  else "blocked"

/-- The request of the commit. -/
def request (env : CommitEnv) (d : Draws) (attemptId : String) (e : Ending) : TerminalRequest where
  attemptId := attemptId
  terminalState := e.resolved
  observation := env.render e.observation
  eventType := some e.eventType
  deadlineAtOrBefore := none
  allowFinalSupersession := false
  transitionId := d.transitionId
  event := d.event
  now := d.now

end Ending

/-- The attempt that is prepared for a row without one. -/
def attemptRequest (env : CommitEnv) (d : Draws) (r : LedgerRow) : AttemptRequest :=
  let label := Capacity.strip (r.controllerLabel.getD "")
  let session := Capacity.strip (r.controllerSessionId.getD "")
  let owned := label ≠ "" ∧ session ≠ ""
  { dispatchId := r.dispatchId
    attemptId := none
    launchToken := none
    startDeadlineAt := none
    deferStartDeadline := false
    ownerControllerLabel := if owned then some label else none
    ownerSessionDigest := if owned then some (env.sessionDigest session) else none
    effectiveAccount := none
    engine := none
    freshAttemptId := d.freshAttemptId
    freshToken := d.freshToken
    now := d.now
    defaultDeadline := d.defaultDeadline }

/-- `commit_terminal_authority`: the answer, and the journal it leaves. -/
def commitTerminalAuthority (env : CommitEnv) (d : Draws) (j : Journal) (r : LedgerRow)
    (e : Ending) : Except Abort TerminalCommit × Journal :=
  match j.attemptForDispatch r.dispatchId with
  | some a => runTx j (j.commitTerminal (e.request env d a.attemptId))
  | none =>
    match runTx j (j.prepareAttempt (attemptRequest env d r)) with
    | (.error abort, j') => (.error abort, j')
    | (.ok identity, j') => runTx j' (j'.commitTerminal (e.request env d identity.attemptId))

/-! ### Commits that go through -/

/-- What a verdict draws is new to the journal. -/
structure Draws.FreshVerdict (d : Draws) (j : Journal) : Prop where
  column : ∀ a ∈ j.attempts, a.terminalTransitionId ≠ some d.transitionId
  transition : ∀ t ∈ j.transitions, t.transitionId ≠ d.transitionId
  outbox : ∀ o ∈ j.outbox, o.transitionId ≠ d.transitionId ∧ o.event ≠ d.event

/-- All that is drawn is new to the journal. -/
structure Draws.Fresh (d : Draws) (j : Journal) : Prop extends d.FreshVerdict j where
  attempt : ∀ a ∈ j.attempts, a.attemptId ≠ d.freshAttemptId

variable {env : CommitEnv} {d : Draws} {j j' : Journal} {r : LedgerRow} {e : Ending}

theorem eventType_mem (e : Ending) : e.eventType ∈ terminalEventTypes := by
  unfold Ending.eventType
  simp only
  split
  · decide
  split
  · decide
  split <;> decide

theorem resolvedEventType_request (env : CommitEnv) (d : Draws) (attemptId : String) (e : Ending) :
    (e.request env d attemptId).resolvedEventType = e.eventType := by
  have hne : e.eventType ≠ "" := by
    intro hempty
    have hmem := eventType_mem e
    rw [hempty] at hmem
    exact absurd hmem (by decide)
  unfold TerminalRequest.resolvedEventType Ending.request
  simp only
  rw [Option.filter_some, if_pos (decide_eq_true hne)]
  rfl

theorem not_supersedes_request (env : CommitEnv) (d : Draws) (attemptId : String) (e : Ending)
    (a : DispatchAttempt) : ¬ (e.request env d attemptId).Supersedes a := by
  rintro ⟨t, -, hallow, -⟩
  cases hallow

theorem exists_writeVerdict {q : TerminalRequest} (hid : a.attemptId = q.attemptId)
    (hdeadline : q.deadlineAtOrBefore = none) (htransition : q.transitionId = d.transitionId)
    (hevent : q.event = d.event) (hfresh : d.FreshVerdict j) :
    ∃ v j', j.writeVerdict q a = .ok (v, j') ∧ v.attemptId = q.attemptId ∧
      v.idempotent = false := by
  have hupdated : a.attemptId = q.attemptId ∧
      ∀ d ∈ q.deadlineAtOrBefore, TerminalRequest.Expired a d := by
    refine ⟨hid, ?_⟩
    rw [hdeadline]
    exact nofun
  unfold Journal.writeVerdict
  simp only
  rw [if_neg (not_not.mpr hupdated)]
  have hattempts : ∃ t, j.attempts.update? (fun b =>
      if b.attemptId = q.attemptId ∧ ∀ d ∈ q.deadlineAtOrBefore, TerminalRequest.Expired b d then
        { b with lifecycle := .final q.terminalColumns, stateUpdatedAt := q.now }
      else b) = some t := by
    rw [Table.update?_isSome_iff, List.pairwise_map]
    refine j.attempts.pairwise.imp_of_mem ?_
    rintro b c hb hc ⟨hkey, hdispatch, htransitions⟩
    have hbnew := hfresh.column b hb
    have hcnew := hfresh.column c hc
    split
    · rename_i hbid
      split
      · rename_i hcid
        exact absurd (hbid.1.trans hcid.1.symm) hkey
      · refine ⟨hkey, hdispatch, .inr ?_⟩
        show some q.transitionId ≠ _
        rw [htransition]
        exact hcnew.symm
    · split
      · refine ⟨hkey, hdispatch, .inr ?_⟩
        show _ ≠ some q.transitionId
        rw [htransition]
        exact hbnew
      · exact ⟨hkey, hdispatch, htransitions⟩
  obtain ⟨attempts, hattempts⟩ := hattempts
  rw [hattempts]
  simp only
  have htransitions : ∃ t, j.transitions.insert? (q.transition a) = some t := by
    rw [← Option.isSome_iff_exists, Option.isSome_iff_ne_none]
    intro hnone
    obtain ⟨t, ht, hnot⟩ := Table.insert?_eq_none_iff.mp hnone
    apply hnot
    show t.transitionId ≠ q.transitionId
    rw [htransition]
    exact hfresh.transition t ht
  obtain ⟨transitions, htransitions⟩ := htransitions
  rw [htransitions]
  simp only
  have houtbox : ∃ t, j.outbox.insert? (q.outboxRow a) = some t := by
    rw [← Option.isSome_iff_exists, Option.isSome_iff_ne_none]
    intro hnone
    obtain ⟨o, ho, hnot⟩ := Table.insert?_eq_none_iff.mp hnone
    obtain ⟨hnewTransition, hnewEvent⟩ := hfresh.outbox o ho
    apply hnot
    refine ⟨?_, ?_⟩
    · intro hkey
      exact hnewTransition ((Prod.mk.inj hkey).2.trans htransition)
    · intro hkey
      exact hnewEvent ((Prod.mk.inj hkey).1.trans hevent)
  obtain ⟨outbox, houtbox⟩ := houtbox
  rw [houtbox]
  exact ⟨_, _, rfl, rfl, rfl⟩

theorem exists_commitTerminal (env : CommitEnv) (e : Ending) {s : LiveState}
    (ha : j.attempt a.attemptId = some a) (hlive : a.lifecycle = .live s)
    (hfresh : d.FreshVerdict j) :
    ∃ v j', j.commitTerminal (e.request env d a.attemptId) = .ok (v, j') ∧
      v.attemptId = a.attemptId ∧ v.idempotent = false := by
  unfold Journal.commitTerminal
  rw [resolvedEventType_request, if_neg (not_not.mpr (eventType_mem e))]
  have ha' : j.attempt (e.request env d a.attemptId).attemptId = some a := ha
  rw [ha']
  simp only
  rw [if_neg (not_supersedes_request env d a.attemptId e a), hlive]
  exact exists_writeVerdict rfl rfl rfl rfl hfresh

theorem attemptForDispatch_eq_some {dispatchId : String}
    (h : j.attemptForDispatch dispatchId = some a) :
    a ∈ j.attempts ∧ a.dispatchId = dispatchId := by
  simpa using Table.find?_eq_some h

theorem exists_prepareAttempt (env : CommitEnv)
    (h : j.attemptForDispatch r.dispatchId = none) (hfresh : d.Fresh j) :
    ∃ j', j.prepareAttempt (attemptRequest env d r) =
        .ok ((attemptRequest env d r).row.identity, j') ∧
      j'.attempt d.freshAttemptId = some (attemptRequest env d r).row ∧ d.FreshVerdict j' := by
  have hinsert : ∃ t, j.attempts.insert? (attemptRequest env d r).row = some t := by
    rw [← Option.isSome_iff_exists, Option.isSome_iff_ne_none]
    intro hnone
    obtain ⟨a, ha, hnot⟩ := Table.insert?_eq_none_iff.mp hnone
    apply hnot
    refine ⟨hfresh.attempt a ha, ?_, ?_⟩
    · intro hdispatch
      have hother := Table.find?_eq_none.mp h a ha
      exact of_decide_eq_false hother hdispatch
    · -- The new row has no transition yet.
      by_cases hlive : a.terminalTransitionId = none
      · exact .inl hlive
      · exact .inr hlive
  obtain ⟨t, ht⟩ := hinsert
  have hmem : ∀ {a}, a ∈ t ↔ a ∈ j.attempts ∨ a = (attemptRequest env d r).row :=
    Table.mem_of_insert? ht
  refine ⟨{ j with attempts := t }, ?_, ?_, ?_⟩
  · unfold Journal.prepareAttempt
    rw [if_neg (fun hdefer => Bool.false_ne_true hdefer.1), if_neg ?owner, if_neg ?label]
    · have hrow : j.attemptForDispatch (attemptRequest env d r).dispatchId = none := h
      rw [hrow]
      simp only
      rw [ht]
    case owner =>
      unfold attemptRequest
      simp only
      split <;> exact fun hne => hne rfl
    case label =>
      unfold attemptRequest
      simp only
      split
      · rename_i howned
        exact fun heq => howned.1 (Option.some.inj heq)
      · exact nofun
  · exact Journal.attempt_eq_some.mpr ⟨hmem.mpr (.inr rfl), rfl⟩
  · refine ⟨fun a ha => ?_, hfresh.transition, hfresh.outbox⟩
    rcases hmem.mp ha with hold | rfl
    · exact hfresh.column a hold
    · exact nofun

/-- **A commit goes through** unless the attempt of the dispatch has ended. -/
theorem exists_commitTerminalAuthority (env : CommitEnv) (e : Ending) (hfresh : d.Fresh j)
    (hopen : ∀ a ∈ j.attempts, a.dispatchId = r.dispatchId → ∃ s, a.lifecycle = .live s) :
    ∃ v, (commitTerminalAuthority env d j r e).1 = .ok v ∧ v.idempotent = false ∧
      ((∃ a ∈ j.attempts, a.dispatchId = r.dispatchId ∧ a.attemptId = v.attemptId) ∨
        v.attemptId = d.freshAttemptId) := by
  unfold commitTerminalAuthority
  split
  · rename_i a hfound
    obtain ⟨hmem, hdispatch⟩ := attemptForDispatch_eq_some hfound
    obtain ⟨s, hlive⟩ := hopen a hmem hdispatch
    obtain ⟨v, j', hcommit, hid, hnew⟩ :=
      exists_commitTerminal env e (Journal.attempt_eq_some.mpr ⟨hmem, rfl⟩) hlive
        hfresh.toFreshVerdict
    rw [hcommit]
    exact ⟨v, rfl, hnew, .inl ⟨a, hmem, hdispatch, hid.symm⟩⟩
  · rename_i hnone
    obtain ⟨j', hprepare, hrow, hverdict⟩ := exists_prepareAttempt env hnone hfresh
    have hlive : (attemptRequest env d r).row.lifecycle = .live .prepared := rfl
    obtain ⟨v, j'', hcommit, hid, hnew⟩ := exists_commitTerminal env e hrow hlive hverdict
    rw [hprepare]
    refine ⟨v, ?_, hnew, .inr hid⟩
    show (runTx j' (j'.commitTerminal _)).1 = _
    rw [show (attemptRequest env d r).row.identity.attemptId =
      (attemptRequest env d r).row.attemptId from rfl, hcommit]
    rfl

theorem not_first_of_final {v : TerminalCommit} {t : TerminalColumns}
    (hfound : j.attemptForDispatch r.dispatchId = some a) (hfinal : a.lifecycle = .final t)
    (h : (commitTerminalAuthority env d j r e).1 = .ok v) : v.idempotent = true := by
  unfold commitTerminalAuthority at h
  rw [hfound] at h
  simp only at h
  have ha : j.attempt (e.request env d a.attemptId).attemptId = some a :=
    Journal.attempt_eq_some.mpr ⟨(attemptForDispatch_eq_some hfound).1, rfl⟩
  unfold runTx Journal.commitTerminal at h
  rw [resolvedEventType_request, if_neg (not_not.mpr (eventType_mem e)), ha] at h
  simp only at h
  rw [if_neg (not_supersedes_request env d a.attemptId e a), hfinal] at h
  simp only at h
  unfold Journal.standingVerdict at h
  split at h
  · rename_i hstanding
    split at hstanding
    · cases hstanding
    · cases hstanding
      cases h
      rfl
  · cases h

theorem attemptId_of_commit {v : TerminalCommit}
    (hfound : j.attemptForDispatch r.dispatchId = some a)
    (h : (commitTerminalAuthority env d j r e).1 = .ok v) : v.attemptId = a.attemptId := by
  unfold commitTerminalAuthority at h
  rw [hfound] at h
  simp only at h
  unfold runTx at h
  split at h
  · rename_i answer j' htx
    cases h
    obtain ⟨b, hb, -, ⟨hwrite, -⟩ | ⟨t, -, -, hstanding⟩⟩ := commitTerminal_cases htx
    · obtain ⟨-, hanswer, -⟩ := writeVerdict_eq_ok hwrite
      rw [hanswer]
      rfl
    · obtain ⟨-, o, -, hanswer⟩ := standingVerdict_eq_ok hstanding
      rw [hanswer]
      exact (Journal.attempt_eq_some.mp hb).2
  · cases h

end GoalFlight.Ledger
