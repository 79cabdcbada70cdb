import GoalFlight.Ledger.Discipline

/-!
# Ledger: a terminal row stays terminal

Once the attempt of a dispatch has ended and its row is terminal, what is written to the row
later is terminal with a verdict of the journal.  `cmd_finish` and the reconciler write nothing
else, and a stamp leaves a terminal row alone; `cmd_record` checks the journal before it takes
the lock, if at all, and writes the state it was given.  `row_stays_terminal` has the condition.
-/

namespace GoalFlight.Ledger

open Json Json.Value GoalFlight.Dispatch Relational Resumption

/-- The row is terminal with a verdict of the dispatch: as the journal has it, or, where it is
abandoned, as withdrawn with the journal's word beside it. -/
structure Tells (dispatchId : String) (j : Journal) (r : LedgerRow) : Prop where
  terminal : r.terminalKey ∉ openTerminalKeys
  verdict : ∃ state, Verdict dispatchId j state ∧ (r.terminalState = some state ∨
    (state = "abandoned" ∧ r.terminalState = some "withdrawn" ∧
      otherField r "journal_terminal_state" = .str "abandoned"))

/-- The row of the dispatch is terminal, and its attempt has ended. -/
def Over (dispatchId : String) (s : Store) (r : LedgerRow) : Prop :=
  Ended dispatchId s.journal ∧ s.row dispatchId = some r ∧ r.terminalKey ∉ openTerminalKeys

/-- **The row does not go back**: a terminal row of an ended attempt is left alone, or becomes
terminal with a verdict. -/
def StaysTerminal (dispatchId : String) (s s' : Store) : Prop :=
  ∀ r, Over dispatchId s r →
    ∃ r', s'.row dispatchId = some r' ∧ (r' = r ∨ Tells dispatchId s'.journal r')

/-- The row that is recorded repeats a verdict of the dispatch. -/
def Repeats (dispatchId : String) (j : Journal) (r : LedgerRow) : Prop :=
  ∃ state, Verdict dispatchId j state ∧ state ∉ openTerminalKeys ∧ r.terminalState = some state

/-- **The condition of a write**: nothing is recorded over a terminal row of an ended attempt
but a verdict, and no verdict without an end is put there. -/
def Respects (dispatchId : String) : Label → Store → Prop
  | .record r, s => r.dispatchId = dispatchId → (∃ old, Over dispatchId s old) →
      Repeats dispatchId s.journal r
  | .finish id v, s | .project id v, s => id = dispatchId → (∃ old, Over dispatchId s old) →
      v.terminalState ∉ openTerminalKeys
  | _, _ => True

/-- The calls that the statement is about, and the transactions of other processes. -/
def Call.isLifecycle : Call → Prop
  | .write _ | .archive _ => False
  | _ => True

variable {dispatchId : String} {s s' : Store} {r : LedgerRow} {v : TerminalCommit} {w : World}

/-! ### Rows that tell a verdict -/

theorem terminalKey_of_terminalState {state : String} (h : r.terminalState = some state)
    (hstate : state ∉ openTerminalKeys) : r.terminalKey ∉ openTerminalKeys := by
  have hne : state ≠ "" := by
    rintro rfl
    exact hstate (by decide)
  unfold LedgerRow.terminalKey Capacity.given
  rw [h, Option.filter_some, if_pos (decide_eq_true hne)]
  exact hstate

theorem Tells.of_terminalState {j : Journal} {state : String} (h : Verdict dispatchId j state)
    (hstate : state ∉ openTerminalKeys) (hr : r.terminalState = some state) :
    Tells dispatchId j r :=
  ⟨terminalKey_of_terminalState hr hstate, state, h, .inl hr⟩

theorem Tells.later {j j' : Journal} (h : Tells dispatchId j r) (hgrows : Grows j j') :
    Tells dispatchId j' r := by
  obtain ⟨hterminal, state, hverdict, hcase⟩ := h
  exact ⟨hterminal, state, hverdict.later hgrows, hcase⟩

theorem tells_projection {j : Journal} (commits : CommitEnv) (reason : Value)
    (h : Verdict dispatchId j v.terminalState) (hstate : v.terminalState ∉ openTerminalKeys)
    {written : LedgerRow} (hends : SameEnd (terminalRecordProjection commits v reason r) written)
    (hothers : written.others = (terminalRecordProjection commits v reason r).others) :
    Tells dispatchId j written := by
  rcases terminalState_terminalRecordProjection commits v reason r with
    ⟨-, hsame⟩ | ⟨habandoned, hwithdrawn, hword⟩
  · exact .of_terminalState h hstate (hends.terminalState.trans hsame)
  · have hwritten : written.terminalState = some "withdrawn" := hends.terminalState.trans hwithdrawn
    refine ⟨terminalKey_of_terminalState hwritten (by decide), v.terminalState, h,
      .inr ⟨habandoned, hwritten, ?_⟩⟩
    unfold otherField at hword ⊢
    rw [hothers]
    exact hword

/-! ### What a write does to the row -/

theorem row_writeRecord (w : World) (s : Store) (r : LedgerRow) (id : String) :
    (s.writeRecord w r).row id =
      if id = r.dispatchId then some (writtenRow w (s.row r.dispatchId) r) else s.row id := by
  unfold Store.writeRecord
  show KeyedTable.get? (KeyedTable.set s.runs _) id = _
  rw [KeyedTable.get?_set, (sameEnd_writtenRow w _ r).dispatchId]
  rfl

theorem dispatchId_known (s : Store) (known : LedgerRow) :
    ((s.row known.dispatchId).getD known).dispatchId = known.dispatchId := by
  cases hrow : s.row known.dispatchId with
  | none => rfl
  | some r => exact (KeyedTable.get?_eq_some.mp hrow).2

theorem staysTerminal_writeRecord
    (h : r.dispatchId = dispatchId → (∃ old, Over dispatchId s old) →
      Tells dispatchId s.journal (writtenRow w (s.row r.dispatchId) r)) :
    StaysTerminal dispatchId s (s.writeRecord w r) := by
  intro old hover
  rw [row_writeRecord]
  split
  · rename_i hid
    exact ⟨_, rfl, .inr (h hid.symm ⟨old, hover⟩)⟩
  · exact ⟨old, hover.2.1, .inl rfl⟩

theorem StaysTerminal.refl (dispatchId : String) (s : Store) : StaysTerminal dispatchId s s :=
  fun r hover => ⟨r, hover.2.1, .inl rfl⟩

/-! ### The discipline -/

/-- What every step keeps: the journal moves on, and the row does not go back. -/
structure Kept (dispatchId : String) (s s' : Store) : Prop where
  grows : Grows s.journal s'.journal
  stays : StaysTerminal dispatchId s s'

theorem Kept.refl (dispatchId : String) (s : Store) : Kept dispatchId s s :=
  ⟨.refl _, .refl _ _⟩

theorem Kept.trans {s₁ s₂ s₃ : Store} (h : Kept dispatchId s₁ s₂) (h' : Kept dispatchId s₂ s₃) :
    Kept dispatchId s₁ s₃ := by
  refine ⟨h.grows.trans h'.grows, fun r hover => ?_⟩
  obtain ⟨r₂, hrow₂, hcase₂⟩ := h.stays r hover
  have hterminal : r₂.terminalKey ∉ openTerminalKeys := by
    rcases hcase₂ with rfl | htells
    · exact hover.2.2
    · exact htells.terminal
  obtain ⟨r₃, hrow₃, hcase₃⟩ := h'.stays r₂ ⟨hover.1.later h.grows, hrow₂, hterminal⟩
  refine ⟨r₃, hrow₃, ?_⟩
  rcases hcase₃ with rfl | htells
  · exact hcase₂.imp_right fun htells => htells.later h'.grows
  · exact .inr htells

theorem kept_writeRecord
    (h : r.dispatchId = dispatchId → (∃ old, Over dispatchId s old) →
      Tells dispatchId s.journal (writtenRow w (s.row r.dispatchId) r)) :
    Kept dispatchId s (s.writeRecord w r) := ⟨.refl _, staysTerminal_writeRecord h⟩

/-- **Every kind of write keeps the row**, under the condition. -/
theorem lifecycle_discipline (commits : CommitEnv) (dispatchId : String) :
    Discipline commits (Kept dispatchId) (fun s => Recorded s.journal) (Respects dispatchId) where
  refl := Kept.refl dispatchId
  trans := Kept.trans
  grows h := h.grows
  recorded h := h
  journal hrecorded hgrows :=
    ⟨⟨hgrows, fun r hover => ⟨r, hover.2.1, .inl rfl⟩⟩, hgrows.history.recorded hrecorded⟩
  record {s} w r hrecorded hguard := by
    refine ⟨kept_writeRecord fun hid hover => ?_, hrecorded⟩
    have hends := sameEnd_merged s r
    obtain ⟨state, hverdict, hstate, hr⟩ := hguard (hends.dispatchId.symm.trans hid) hover
    have hwritten := sameEnd_writtenRow w (s.row (s.merged r).dispatchId) (s.merged r)
    exact .of_terminalState hverdict hstate
      (hwritten.terminalState.trans (hends.terminalState.trans hr))
  stamp {s} w known fields hrecorded _ := by
    unfold Store.stamp
    simp only
    split
    · exact ⟨.refl _ _, hrecorded⟩
    rename_i hopen
    split
    · exact ⟨.refl _ _, hrecorded⟩
    refine ⟨kept_writeRecord fun hid hover => ?_, hrecorded⟩
    -- The row that is stamped is not terminal, so it is not the one that is over.
    obtain ⟨old, -, hrow, hterminal⟩ := hover
    rw [(sameEnd_update _ fields).dispatchId] at hid
    rw [← hid, dispatchId_known] at hrow
    rw [hrow, Option.getD_some] at hopen
    exact absurd hterminal hopen
  finish {s} w a v hrecorded hguard hverdict := by
    unfold Store.finish
    split
    · exact ⟨.refl _ _, hrecorded⟩
    · rename_i r hrow
      have hdispatch : r.dispatchId = a.dispatchId := (KeyedTable.get?_eq_some.mp hrow).2
      refine ⟨kept_writeRecord fun hid hover => ?_, hrecorded⟩
      rw [dispatchId_finishedRow] at hid
      rw [← hdispatch, hid] at hverdict
      have hstate := hguard (hdispatch.symm.trans hid) hover
      have hwritten := sameEnd_writtenRow w (s.row (finishedRow commits a v r).dispatchId)
        (finishedRow commits a v r)
      exact .of_terminalState hverdict hstate
        (hwritten.terminalState.trans (terminalState_finishedRow commits a v r))
  project {s} commits w known v reason hrecorded hguard hverdict := by
    refine ⟨kept_writeRecord fun hid hover => ?_, hrecorded⟩
    rw [dispatchId_terminalRecordProjection] at hid
    rw [dispatchId_known] at hid
    rw [hid] at hverdict
    refine tells_projection commits reason hverdict (hguard hid hover)
      (sameEnd_writtenRow w _ _) ?_
    unfold writtenRow LedgerRow.keepingEnd
    split <;> rfl

theorem safe_lifecycle (commits : CommitEnv) (dispatchId : String) {c : Call}
    (hc : c.isLifecycle) (s : Store) :
    Safe (Kept dispatchId) (fun s => Recorded s.journal) (Respects dispatchId)
      (c.program commits) s := by
  have d := lifecycle_discipline commits dispatchId
  cases c with
  | record a => exact d.safe_cmdRecord commits a
  | finish a => exact d.safe_cmdFinish a
  | stamp known fields => exact d.safe_stamp Discipline.later_done
  | reconcile p => exact d.safe_reconcile p
  | write r => exact hc.elim
  | archive k => exact hc.elim
  | journal op => exact d.safe_journal op

/-- **A terminal row stays terminal**, in every run of the commands that records nothing over a
terminal row of an ended attempt but a verdict of it. -/
theorem row_stays_terminal (commits : CommitEnv) (dispatchId : String) {shared : Store}
    (hjournal : shared.journal.Reachable) {before after : List Action}
    (hmeets : Machine.Meets (step (Call.program commits))
      (Condition Call.isLifecycle (Respects dispatchId)) (idle shared) (before ++ after)) :
    StaysTerminal dispatchId (run commits (idle shared) before).shared
      (run commits (idle shared) (before ++ after)).shared := by
  have hrefl : ∀ s, Kept dispatchId s s := Kept.refl dispatchId
  have hbody : ∀ c : Call, c.isLifecycle → ∀ s : Store, Recorded s.journal →
      Safe (Kept dispatchId) (fun s => Recorded s.journal) (Respects dispatchId)
        (c.program commits) s :=
    fun c hc s _ => safe_lifecycle commits dispatchId hc s
  obtain ⟨hbefore, hafter⟩ := (Machine.meets_append _).mp hmeets
  have hstart : AllSafe (Kept dispatchId) (fun s => Recorded s.journal) (Respects dispatchId)
      (idle shared : State) := allSafe_idle hjournal.recorded
  obtain ⟨hmiddle, -⟩ := hstart.run hrefl Kept.trans hbody hbefore
  obtain ⟨-, hkept⟩ := hmiddle.run hrefl Kept.trans hbody hafter
  unfold run
  rw [Machine.run_append]
  exact hkept.stays

/-! ### A row that is recorded again -/

/-- An attempt of a dispatch, and the commit that ends it. -/
def endedJournal : Journal :=
  Machine.run Journal.step Journal.fresh
    [.prepareAttempt
        { dispatchId := "d"
          attemptId := none
          launchToken := none
          startDeadlineAt := none
          deferStartDeadline := false
          ownerControllerLabel := none
          ownerSessionDigest := none
          effectiveAccount := none
          engine := none
          freshAttemptId := "a"
          freshToken := "token"
          now := "t0"
          defaultDeadline := "t9" },
      .commitTerminal
        { attemptId := "a"
          terminalState := "complete"
          observation := "\x7b\x7d"
          eventType := none
          deadlineAtOrBefore := none
          allowFinalSupersession := false
          transitionId := "tr"
          event := ⟨"node", "event"⟩
          now := "t1" }]

def completeRow : LedgerRow where
  dispatchId := "d"
  state := "complete"
  terminalState := some "complete"

def completeStore : Store where
  journal := endedJournal
  runs := ⟨[completeRow], List.pairwise_singleton _ _⟩
  archive := .empty

def laterWorld : World where
  host := { now := 0, processIdentity := fun _ => .gone }
  statusFile := fun _ => none
  draws :=
    { freshAttemptId := "b"
      freshToken := "fresh"
      transitionId := "tr2"
      event := ⟨"node", "event2"⟩
      now := "t2"
      defaultDeadline := "t9" }
  clock := .at 0

def plainCommits : CommitEnv where
  render := fun _ => ""
  sessionDigest := id

/-- `cmd_record` of the dispatch in a state, to its end. -/
def recordAgain (state : String) : List Action :=
  [.call 0 (.record { dispatchId := "d", state := state }), .turn 0 laterWorld,
    .turn 0 laterWorld, .turn 0 laterWorld]

theorem over_completeStore : Over "d" completeStore completeRow :=
  ⟨⟨_, List.mem_cons_self, rfl, _, rfl⟩, rfl, by decide⟩

/-- A record that repeats the verdict. -/
theorem row_stays_terminal_repeated :
    StaysTerminal "d" completeStore
      (run plainCommits (idle completeStore) (recordAgain "complete")).shared := by
  have hreachable : completeStore.journal.Reachable := ⟨_, rfl⟩
  refine @row_stays_terminal plainCommits "d" completeStore hreachable [] (recordAgain "complete")
    ⟨trivial, trivial, ?_, trivial, trivial⟩
  intro _ _
  exact ⟨"complete", ⟨_, List.mem_cons_self, rfl, _, List.mem_cons_self, rfl, rfl⟩, by decide, rfl⟩

/-- **A terminal row opens again**: the attempt that `prepare_attempt` finds has ended, and a
dispatch that waits for capacity is recorded all the same. -/
theorem record_opens_terminal_row :
    endedJournal.Reachable ∧
      ¬ StaysTerminal "d" completeStore
        (run plainCommits (idle completeStore) (recordAgain "waiting_capacity")).shared := by
  have hreachable : endedJournal.Reachable := ⟨_, rfl⟩
  refine ⟨hreachable, fun h => ?_⟩
  obtain ⟨r, hrow, hcase⟩ := h completeRow over_completeStore
  cases hrow
  rcases hcase with hsame | ⟨hterminal, -⟩
  · exact absurd (congrArg LedgerRow.terminalState hsame) (by decide)
  · exact absurd hterminal (by decide)

end GoalFlight.Ledger
