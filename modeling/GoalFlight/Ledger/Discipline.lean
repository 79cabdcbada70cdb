import GoalFlight.Ledger.Programs

/-!
# Ledger: what a discipline of writes gives

A statement about every interleaving of the commands asks, for each kind of write, that it
keeps an invariant and stays within a relation; `Discipline` collects what is asked.
It makes every command a safe program (`safe_reconcile`), with what the commands know by the time they write: the verdict that `cmd_finish` and the reconciler project
is one that the journal has recorded for the dispatch.
-/

namespace GoalFlight.Ledger

open Json Json.Value GoalFlight.Dispatch Relational Resumption

variable {rest : Program} {v : AttemptIdentity}

/-! ### The journal moves on -/

/-- A later journal. -/
structure Grows (j j' : Journal) : Prop where
  advance : VerdictsAdvance j j'
  history : KeepsHistory j j'

theorem Grows.refl (j : Journal) : Grows j j := ⟨.refl j, .of_same rfl rfl⟩

theorem Grows.trans {j₁ j₂ j₃ : Journal} (h : Grows j₁ j₂) (h' : Grows j₂ j₃) : Grows j₁ j₃ :=
  ⟨h.advance.trans h'.advance, h.history.trans h'.history⟩

/-- The attempt of a dispatch. -/
def Known (dispatchId attemptId : String) (j : Journal) : Prop :=
  ∃ a ∈ j.attempts, a.dispatchId = dispatchId ∧ a.attemptId = attemptId

/-- The attempt of the dispatch has ended. -/
def Ended (dispatchId : String) (j : Journal) : Prop :=
  ∃ a ∈ j.attempts, a.dispatchId = dispatchId ∧ ∃ t, a.lifecycle = .final t

/-- **A verdict of the dispatch**: the winner of its attempt, or a supersession of it. -/
def Verdict (dispatchId : String) (j : Journal) (state : String) : Prop :=
  ∃ a ∈ j.attempts, a.dispatchId = dispatchId ∧
    ∃ r ∈ j.transitions, r.attemptId = a.attemptId ∧ r.terminalState = state

variable {j j' : Journal} {dispatchId attemptId state : String}

theorem Known.later (h : Known dispatchId attemptId j) (hgrows : Grows j j') :
    Known dispatchId attemptId j' := by
  obtain ⟨a, ha, hdispatch, hid⟩ := h
  obtain ⟨a', ha', hlead⟩ := hgrows.advance a ha
  exact ⟨a', ha', hlead.dispatchId.trans hdispatch, hlead.attemptId.trans hid⟩

theorem Ended.later (h : Ended dispatchId j) (hgrows : Grows j j') : Ended dispatchId j' := by
  obtain ⟨a, ha, hdispatch, t, hfinal⟩ := h
  obtain ⟨a', ha', hlead⟩ := hgrows.advance a ha
  refine ⟨a', ha', hlead.dispatchId.trans hdispatch, ?_⟩
  have hcycle := hlead.lifecycle
  rw [hfinal] at hcycle
  cases hlife : a'.lifecycle with
  | live s =>
    rw [hlife] at hcycle
    exact hcycle.elim
  | final t' => exact ⟨t', rfl⟩

theorem Verdict.later (h : Verdict dispatchId j state) (hgrows : Grows j j') :
    Verdict dispatchId j' state := by
  obtain ⟨a, ha, hdispatch, r, hr, hid, hstate⟩ := h
  obtain ⟨a', ha', hlead⟩ := hgrows.advance a ha
  exact ⟨a', ha', hlead.dispatchId.trans hdispatch, r, hgrows.history.transitions r hr,
    hid.trans hlead.attemptId.symm, hstate⟩

theorem grows_step (j : Journal) (op : JournalOp) : Grows j (j.step op) :=
  ⟨j.step_verdictsAdvance op, j.step_keepsHistory op⟩

theorem grows_prepareAttempt {q : AttemptRequest} (h : j.prepareAttempt q = .ok (v, j')) :
    Grows j j' :=
  ⟨(prepareAttempt_live h).advance, (prepareAttempt_live h).keepsHistory⟩

theorem grows_startAttempt {launchToken : String} {epoch : ℕ} {now deadline : Timestamp}
    (h : j.startAttempt attemptId launchToken epoch now deadline = .ok (v, j')) : Grows j j' :=
  ⟨(startAttempt_live h).advance, (startAttempt_live h).keepsHistory⟩

theorem grows_commitTerminal {q : TerminalRequest} {v : TerminalCommit}
    (h : j.commitTerminal q = .ok (v, j')) : Grows j j' :=
  ⟨(commitTerminal_keeps h).2, commitTerminal_keepsHistory h⟩

theorem known_prepareAttempt {q : AttemptRequest} (h : j.prepareAttempt q = .ok (v, j')) :
    Known q.dispatchId v.attemptId j' := by
  have hgrows := grows_prepareAttempt h
  unfold Journal.prepareAttempt at h
  split at h
  · cases h
  split at h
  · cases h
  split at h
  · cases h
  split at h
  · rename_i a hfound
    obtain ⟨ha, hdispatch⟩ := attemptForDispatch_eq_some hfound
    split at h
    · cases h
    · cases h
      exact Known.later ⟨a, ha, hdispatch, rfl⟩ hgrows
  · split at h
    · cases h
    · rename_i attempts hinsert
      cases h
      exact ⟨q.row, (Table.mem_of_insert? hinsert).mpr (.inr rfl), rfl, rfl⟩

/-- **The answer to a commit is a verdict of the dispatch.** -/
theorem verdict_commitTerminal {q : TerminalRequest} {v : TerminalCommit}
    (h : j.commitTerminal q = .ok (v, j')) (hknown : Known dispatchId q.attemptId j)
    (hrecorded : Recorded j') : Verdict dispatchId j' v.terminalState := by
  obtain ⟨a, ha, hid, t, hfinal, -, hstate, -⟩ := commitTerminal_answer h
  obtain ⟨b, hb, hdispatch, hbid⟩ := hknown.later (grows_commitTerminal h)
  have hsame : a = b := by
    have hkey : a.attemptId = b.attemptId := hid.trans hbid.symm
    exact Table.eq_of_not_compat ha hb (fun hc => hc.key hkey) (fun hc => hc.key hkey.symm)
  obtain ⟨r, hr, hrid, hrstate⟩ := hrecorded a ha t hfinal
  exact ⟨a, ha, hsame ▸ hdispatch, r, hr, hrid, hrstate.trans hstate⟩

/-! ### The discipline -/

/-- **What is asked of each kind of write.** -/
structure Discipline (commits : CommitEnv) (R : Store → Store → Prop) (inv : Store → Prop)
    (guard : Label → Store → Prop) : Prop where
  refl : ∀ s, R s s
  trans : ∀ {a b c}, R a b → R b c → R a c
  grows : ∀ {s s'}, R s s' → Grows s.journal s'.journal
  recorded : ∀ {s}, inv s → Recorded s.journal
  journal : ∀ {s : Store} {j'}, inv s → Grows s.journal j' →
    R s { s with journal := j' } ∧ inv { s with journal := j' }
  record : ∀ {s} w r, inv s → guard (.record r) s → R s (s.record w r) ∧ inv (s.record w r)
  stamp : ∀ {s} w known fields, inv s → guard (.stamp known fields) s →
    R s (s.stamp w known fields) ∧ inv (s.stamp w known fields)
  finish : ∀ {s} w a v, inv s → guard (.finish a.dispatchId v) s →
    Verdict a.dispatchId s.journal v.terminalState →
      R s (s.finish commits a v w) ∧ inv (s.finish commits a v w)
  project : ∀ {s} commits w known v reason, inv s → guard (.project known.dispatchId v) s →
    Verdict known.dispatchId s.journal v.terminalState →
      R s (s.project commits known v reason w) ∧ inv (s.project commits known v reason w)

namespace Discipline

variable {commits : CommitEnv} {R : Store → Store → Prop} {inv : Store → Prop}
  {guard : Label → Store → Prop} (d : Discipline commits R inv guard) {s : Store}

include d

/-- A program that is safe from every later state. -/
def Later (R : Store → Store → Prop) (inv : Store → Prop) (guard : Label → Store → Prop)
    (s : Store) (P : Program) : Prop :=
  ∀ s', R s s' → inv s' → Safe R inv guard P s'

omit d in
theorem later_done : Later R inv guard s (.done : Program) := fun _ _ _ => trivial

theorem safe_readStore {rest : World → Store → Program}
    (hrest : ∀ w s', R s s' → inv s' → Safe R inv guard (rest w s') s') :
    Safe R inv guard (readStore rest) s :=
  fun s' hR hinv _ w => ⟨d.refl s', hinv, hrest w s' hR hinv⟩

theorem safe_locked {label : Label} {write : World → Store → Store}
    (hwrite : ∀ w s', R s s' → inv s' → guard label s' → R s' (write w s') ∧ inv (write w s'))
    (hrest : Later R inv guard s rest) : Safe R inv guard (locked label write rest) s := by
  intro s' hR hinv hguard w
  obtain ⟨hR', hinv'⟩ := hwrite w s' hR hinv hguard
  exact ⟨hR', hinv', hrest _ (d.trans hR hR') hinv'⟩

theorem safe_transact {α : Type} {tx : World → Journal → Tx α}
    {rest : Except Abort α → Program}
    (htx : ∀ w s' v j', R s s' → inv s' → tx w s'.journal = .ok (v, j') →
      Grows s'.journal j' ∧ (R s { s' with journal := j' } → inv { s' with journal := j' } →
        Safe R inv guard (rest (.ok v)) { s' with journal := j' }))
    (herror : ∀ abort, Later R inv guard s (rest (.error abort))) :
    Safe R inv guard (transact tx rest) s := by
  intro s' hR hinv _ w
  let next : Except Abort α × Journal → Store := fun answer => { s' with journal := answer.2 }
  show R s' (next (runTx s'.journal (tx w s'.journal))) ∧
    inv (next (runTx s'.journal (tx w s'.journal))) ∧
      Safe R inv guard (rest (runTx s'.journal (tx w s'.journal)).1)
        (next (runTx s'.journal (tx w s'.journal)))
  cases hresult : tx w s'.journal with
  | error abort => exact ⟨d.refl s', hinv, herror abort s' hR hinv⟩
  | ok result =>
    obtain ⟨v, j'⟩ := result
    obtain ⟨hgrows, hrest⟩ := htx w s' v j' hR hinv hresult
    obtain ⟨hR', hinv'⟩ := d.journal hinv hgrows
    exact ⟨hR', hinv', hrest (d.trans hR hR') hinv'⟩

theorem safe_commit {q : World → TerminalRequest} {id : String}
    {rest : Except Abort TerminalCommit → Program} (hq : ∀ w, (q w).attemptId = id)
    (hknown : Known dispatchId id s.journal)
    (hrest : ∀ v s', R s s' → inv s' → Verdict dispatchId s'.journal v.terminalState →
      Safe R inv guard (rest (.ok v)) s')
    (herror : ∀ abort, Later R inv guard s (rest (.error abort))) :
    Safe R inv guard (transact (fun w j => j.commitTerminal (q w)) rest) s := by
  refine d.safe_transact (fun w s' v j' hR hinv htx => ⟨grows_commitTerminal htx, ?_⟩) herror
  intro hR' hinv'
  have hknown' : Known dispatchId (q w).attemptId s'.journal := by
    rw [hq]
    exact hknown.later (d.grows hR)
  exact hrest v _ hR' hinv' (verdict_commitTerminal htx hknown' (d.recorded hinv'))

theorem safe_commitAuthority {known : LedgerRow} {e : Ending}
    {rest : Except Abort TerminalCommit → Program} (commits : CommitEnv)
    (hrest : ∀ v s', R s s' → inv s' → Verdict known.dispatchId s'.journal v.terminalState →
      Safe R inv guard (rest (.ok v)) s')
    (herror : ∀ abort, Later R inv guard s (rest (.error abort))) :
    Safe R inv guard (commitAuthority commits known e rest) s := by
  refine d.safe_readStore fun w s' hR hinv => ?_
  have herror' : ∀ abort, Later R inv guard s' (rest (.error abort)) :=
    fun abort s'' hR' => herror abort s'' (d.trans hR hR')
  split
  · rename_i a hfound
    obtain ⟨ha, hdispatch⟩ := attemptForDispatch_eq_some hfound
    exact d.safe_commit (fun _ => rfl) ⟨a, ha, hdispatch, rfl⟩
      (fun v s'' hR' => hrest v s'' (d.trans hR hR')) herror'
  · refine d.safe_transact (fun w s'' v j' hR' _ htx => ⟨grows_prepareAttempt htx, ?_⟩)
      (fun abort => herror' abort)
    intro hR'' hinv''
    have hknown := known_prepareAttempt htx
    exact d.safe_commit (fun _ => rfl) hknown
      (fun v' s₃ hR₃ => hrest v' s₃ (d.trans (d.trans hR hR'') hR₃))
      (fun abort s₃ hR₃ => herror' abort s₃ (d.trans hR'' hR₃))

/-! ### The commands -/

theorem safe_cmdRecord (commits : CommitEnv) (a : RecordArgs) :
    Safe R inv guard (cmdRecord commits a) s := by
  have hwrite : ∀ r s', Safe R inv guard
      (locked (.record r) (fun w s => s.record w r) .done) s' :=
    fun r s' => d.safe_locked (fun w s'' _ hinv hguard => d.record w r hinv hguard) later_done
  refine d.safe_readStore fun w s' _ _ => ?_
  simp only
  split
  · refine d.safe_transact (fun w' s'' identity j' _ _ htx => ⟨grows_prepareAttempt htx, ?_⟩)
      fun _ => later_done
    intro _ _
    simp only
    split
    · refine d.safe_transact (fun w' s'' started j' _ _ htx => ⟨grows_startAttempt htx, ?_⟩)
        fun _ => later_done
      exact fun _ _ => hwrite _ _
    · split
      · trivial
      · exact hwrite _ _
  · exact hwrite _ _

theorem safe_cmdFinish (a : FinishArgs) : Safe R inv guard (cmdFinish commits a) s := by
  refine d.safe_readStore fun w s' _ _ => ?_
  split
  · trivial
  · rename_i known hknown
    have hdispatch : known.dispatchId = a.dispatchId := by
      unfold Store.readRecord at hknown
      rcases Option.or_eq_some_iff.mp hknown with hrow | ⟨-, harchived⟩
      · exact (KeyedTable.get?_eq_some.mp hrow).2
      · have hfound := List.find?_some harchived
        exact of_decide_eq_true hfound
    refine d.safe_commitAuthority commits (fun v s'' _ _ hverdict => ?_) fun _ => later_done
    simp only
    split
    · trivial
    · refine d.safe_locked (fun w' s₃ hR₃ hinv₃ hguard => ?_) later_done
      rw [hdispatch] at hverdict
      exact d.finish w' a v hinv₃ hguard (hverdict.later (d.grows hR₃))

theorem safe_stamp {known : LedgerRow} {fields : StampFields}
    (hrest : Later R inv guard s rest) :
    Safe R inv guard (stampNonterminalFields known fields rest) s :=
  d.safe_locked (fun w _ _ hinv hguard => d.stamp w known fields hinv hguard) hrest

theorem safe_projectTurn (p : Scope) {r : LedgerRow} {needed : Bool} {e : Ending}
    {v : TerminalCommit} (hverdict : Verdict r.dispatchId s.journal v.terminalState)
    (hrest : Later R inv guard s rest) (hinv : inv s) :
    Safe R inv guard (projectTurn p r needed e rest (.ok v)) s := by
  unfold projectTurn
  simp only
  split
  · refine d.safe_locked (fun w s' hR hinv' hguard => ?_) hrest
    exact d.project p.commits w r v e.reason hinv' hguard (hverdict.later (d.grows hR))
  · exact hrest s (d.refl s) hinv

/-- The turns of a pass; the attempts of the missed deadlines are those of their dispatches. -/
theorem later_turnsOf (p : Scope) {launches : List DispatchAttempt}
    (hlaunches : ∀ a ∈ launches, Known a.dispatchId a.attemptId s.journal)
    (rows : List LedgerRow) : Later R inv guard s (turnsOf p launches rows) := by
  induction rows generalizing s with
  | nil => exact later_done
  | cons r more ih =>
    intro s' hR hinv
    have hlater : ∀ {s''}, R s' s'' → Later R inv guard s'' (turnsOf p launches more) := by
      intro s'' hR'
      exact ih fun a ha => (hlaunches a ha).later (d.grows (d.trans hR hR'))
    unfold turnsOf
    split
    · refine d.safe_readStore fun w s₁ hR₁ hinv₁ => ?_
      simp only
      split
      · trivial
      · exact hlater hR₁ s₁ (d.refl s₁) hinv₁
      · exact d.safe_stamp (hlater hR₁)
      · rename_i e hends
        split
        · rename_i a hlaunch
          have hmem := List.mem_of_find?_eq_some hlaunch
          have hfound := List.find?_some hlaunch
          have hsame : a.dispatchId = r.dispatchId := of_decide_eq_true hfound
          have hknown : Known r.dispatchId a.attemptId s₁.journal := by
            rw [← hsame]
            exact (hlaunches a hmem).later (d.grows (d.trans hR hR₁))
          refine d.safe_commit (fun _ => rfl) hknown (fun v s₂ hR₂ hinv₂ hverdict => ?_) ?_
          · exact d.safe_projectTurn p hverdict (hlater (d.trans hR₁ hR₂)) hinv₂
          · exact fun abort => hlater hR₁
        · refine d.safe_commitAuthority p.commits (fun v s₂ hR₂ hinv₂ hverdict => ?_) ?_
          · exact d.safe_projectTurn p hverdict (hlater (d.trans hR₁ hR₂)) hinv₂
          · exact fun abort => hlater hR₁
    · exact hlater (d.refl s') s' (d.refl s') hinv

theorem later_hydrateRows (p : Scope) {rest : List LedgerRow → Program}
    (hrest : ∀ rows, Later R inv guard s (rest rows)) (attempts : List DispatchAttempt)
    (rows : List LedgerRow) : Later R inv guard s (hydrateRows p rest attempts rows) := by
  induction attempts generalizing s rows with
  | nil => exact hrest rows
  | cons a more ih =>
    intro s' hR hinv
    unfold hydrateRows
    split
    · exact ih hrest rows s' hR hinv
    · simp only
      split
      · exact ih hrest _ s' hR hinv
      · exact d.safe_stamp fun s'' hR' hinv' => ih hrest _ s'' (d.trans hR hR') hinv'

theorem safe_reconcile (p : Scope) : Safe R inv guard (reconcileTerminalOutbox p) s := by
  refine d.safe_readStore fun _ s₁ _ hinv₁ => ?_
  refine d.safe_readStore fun _ s₂ hR₂ hinv₂ => ?_
  refine d.safe_readStore fun _ s₃ hR₃ hinv₃ => ?_
  refine d.safe_readStore fun _ s₄ hR₄ hinv₄ => ?_
  have hlaunches : ∀ a ∈ p.expiredLaunches s₁.journal,
      Known a.dispatchId a.attemptId s₄.journal := by
    intro a ha
    have hknown : Known a.dispatchId a.attemptId s₁.journal :=
      ⟨a, (List.mem_filter.mp ha).1, rfl, rfl⟩
    exact hknown.later (d.grows (d.trans (d.trans hR₂ hR₃) hR₄))
  exact d.later_hydrateRows p (fun rows => d.later_turnsOf p hlaunches rows) _ _ s₄ (d.refl s₄) hinv₄

theorem safe_journal (op : JournalOp) :
    Safe R inv guard ((Call.journal op).program commits) s :=
  d.safe_locked (fun _ s' _ hinv _ => d.journal hinv (grows_step s'.journal op)) later_done

end Discipline

end GoalFlight.Ledger
