import GoalFlight.Journal.Verdict

/-!
# The verdicts a journal has recorded

`dispatch_transitions` is only appended to, so it keeps every verdict of an attempt: the first
one and, where that one was withdrawn, the withdrawal.  `Recorded` has each ended attempt's
verdict among them.
-/

namespace GoalFlight

open Relational

/-- The verdict of every ended attempt is among the transitions. -/
def Recorded (j : Journal) : Prop :=
  ∀ a ∈ j.attempts, ∀ t, a.lifecycle = .final t →
    ∃ r ∈ j.transitions, r.attemptId = a.attemptId ∧ r.terminalState = t.terminalState

theorem Recorded.fresh : Recorded Journal.fresh :=
  fun _ ha => absurd ha (Table.notMem_empty _)

/-- **What a transaction leaves of the history**: no transition is lost, and an attempt that is
ended afterwards was so before or has its verdict recorded. -/
structure KeepsHistory (j j' : Journal) : Prop where
  transitions : ∀ r ∈ j.transitions, r ∈ j'.transitions
  finals : ∀ a' ∈ j'.attempts, ∀ t, a'.lifecycle = .final t →
    (∃ a ∈ j.attempts, a.attemptId = a'.attemptId ∧ a.lifecycle = .final t) ∨
      ∃ r ∈ j'.transitions, r.attemptId = a'.attemptId ∧ r.terminalState = t.terminalState

variable {j j' : Journal}

theorem KeepsHistory.of_same (ha : j'.attempts = j.attempts)
    (ht : j'.transitions = j.transitions) : KeepsHistory j j' := by
  refine ⟨fun r hr => by rwa [ht], fun a' ha' t hfinal => .inl ⟨a', ?_, rfl, hfinal⟩⟩
  rwa [ha] at ha'

theorem KeepsHistory.recorded (h : KeepsHistory j j') (hj : Recorded j) : Recorded j' := by
  intro a' ha' t hfinal
  rcases h.finals a' ha' t hfinal with ⟨a, ha, hid, hold⟩ | hnew
  · obtain ⟨r, hr, hrid, hstate⟩ := hj a ha t hold
    exact ⟨r, h.transitions r hr, hrid.trans hid, hstate⟩
  · exact hnew

theorem KeepsHistory.trans {j'' : Journal} (h : KeepsHistory j j') (h' : KeepsHistory j' j'') :
    KeepsHistory j j'' := by
  refine ⟨fun r hr => h'.transitions r (h.transitions r hr), fun a'' ha'' t hfinal => ?_⟩
  rcases h'.finals a'' ha'' t hfinal with ⟨a', ha', hid', hold'⟩ | hnew
  · rcases h.finals a' ha' t hold' with ⟨a, ha, hid, hold⟩ | ⟨r, hr, hrid, hstate⟩
    · exact .inl ⟨a, ha, hid.trans hid', hold⟩
    · exact .inr ⟨r, h'.transitions r hr, hrid.trans hid', hstate⟩
  · exact .inr hnew

theorem LiveWrite.keepsHistory (h : LiveWrite j j') : KeepsHistory j j' := by
  obtain ⟨attempts, rfl⟩ := h.rest
  exact ⟨fun r hr => hr, fun a ha t hfinal => .inl ⟨a, h.finals a ha t hfinal, rfl, hfinal⟩⟩

theorem commitTerminal_keepsHistory {q : TerminalRequest} {v : TerminalCommit}
    (h : j.commitTerminal q = .ok (v, j')) : KeepsHistory j j' := by
  obtain ⟨a, ha, -, ⟨hwrite, -⟩ | ⟨t, -, -, hstanding⟩⟩ := commitTerminal_cases h
  · obtain ⟨-, -, hrows, htransitions, -⟩ := writeVerdict_eq_ok hwrite
    refine ⟨fun r hr => (Table.mem_of_insert? htransitions).mpr (.inl hr), ?_⟩
    intro b hb t hfinal
    obtain ⟨c, hc, rfl⟩ := Table.exists_of_mem hb hrows
    split at hfinal
    · rename_i hsel
      rw [if_pos hsel]
      cases hfinal
      exact .inr ⟨_, (Table.mem_of_insert? htransitions).mpr (.inr rfl), hsel.1.symm, rfl⟩
    · rw [if_neg ‹_›]
      exact .inl ⟨c, hc, rfl, hfinal⟩
  · obtain ⟨rfl, -⟩ := standingVerdict_eq_ok hstanding
    exact .of_same rfl rfl

/-- **Step.**  Every transaction keeps the history. -/
theorem JournalOp.keepsHistory {op : JournalOp} (h : op.run j = .ok j') : KeepsHistory j j' := by
  cases op with
  | prepareAttempt | rebindPreparedAttemptAccount | startAttempt | markAttemptRunning =>
    exact (JournalOp.run_liveWrite h trivial).keepsHistory
  | commitTerminal =>
    obtain ⟨v, hv⟩ := Tx.committed_eq_ok.mp h
    exact commitTerminal_keepsHistory hv
  | _ =>
    have hsame := JournalOp.run_sameAttempts h id
    exact .of_same hsame.attempts hsame.transitions

theorem Journal.step_keepsHistory (j : Journal) (op : JournalOp) : KeepsHistory j (j.step op) :=
  Journal.step_of_run (P := KeepsHistory j) (.of_same rfl rfl)
    fun _ hrun => JournalOp.keepsHistory hrun

/-- **Run.**  The verdict of every ended attempt is recorded in every reachable journal. -/
theorem Journal.Reachable.recorded (h : j.Reachable) : Recorded j := by
  obtain ⟨ops, rfl⟩ := h
  exact Machine.run_invariant (fun j op hj => (j.step_keepsHistory op).recorded hj)
    Recorded.fresh ops

end GoalFlight
