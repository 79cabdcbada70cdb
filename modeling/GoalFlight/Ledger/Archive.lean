import GoalFlight.Ledger.Lifecycle

/-!
# Ledger: one row for a dispatch, and the archiver

`archive_terminal_records` moves settled rows from `runs.d` to the archive of their month, and
raises before it moves any where a name is taken there.  It runs under the ledger lock, as all
writes do; but the writers do not look into the archive, and a write for a dispatch whose row
was archived puts a second row in `runs.d`.

`archiving_never_wedges` has the condition under which each dispatch has one row and every pass
of the archiver moves all that it should.
-/

namespace GoalFlight.Ledger

open Json Json.Value GoalFlight.Dispatch Relational Resumption

/-- A row of the dispatch is archived. -/
def Archived (dispatchId : String) (s : Store) : Prop :=
  ∃ e ∈ s.archive, e.2.dispatchId = dispatchId

/-- **One row**: no dispatch has a row in `runs.d` and another in the archive. -/
def OneRow (s : Store) : Prop := ∀ r ∈ s.runs, ¬ Archived r.dispatchId s

/-- A write of this dispatch puts a row into `runs.d` where there was none, and the archive has
one. -/
def Recreates (dispatchId : String) (s : Store) : Prop :=
  s.row dispatchId = none ∧ Archived dispatchId s

/-- **The condition of a write**: it does not recreate the row of an archived dispatch.  A stamp
of a row that is known to be terminal, or that has the fields, writes nothing. -/
def NeverRecreates : Label → Store → Prop
  | .record r, s | .write r, s => ¬ Recreates r.dispatchId s
  | .project dispatchId _, s => ¬ Recreates dispatchId s
  | .stamp known fields, s =>
    known.terminalKey ∈ openTerminalKeys → fields.update known ≠ known →
      ¬ Recreates known.dispatchId s
  | .free, _ | .finish _ _, _ | .archive, _ => True

/-- **A pass of the archiver** moves the rows that are settled past the retention, keeps the
other rows, and takes nothing out of the archive. -/
structure Moved (k : Retention) (now : Seconds) (s s' : Store) : Prop where
  moved : ∀ r ∈ s.runs, Archivable k now r → (archiveMonth k r, r) ∈ s'.archive ∧ r ∉ s'.runs
  kept : ∀ r ∈ s.runs, ¬ Archivable k now r → r ∈ s'.runs
  cold : ∀ e ∈ s.archive, e ∈ s'.archive

variable {k : Retention} {s s' : Store} {r : LedgerRow} {w : World} {dispatchId : String}

/-! ### Moving rows -/

theorem moveRows_eq_some {rows : List LedgerRow} (hfree : ∀ r ∈ rows, ¬ Archived r.dispatchId s)
    (hrows : rows.Pairwise fun a b => a.dispatchId ≠ b.dispatchId) :
    ∃ s', moveRows k s rows = some s' ∧ s'.journal = s.journal ∧
      (∀ r, r ∈ s'.runs ↔ r ∈ s.runs ∧ ∀ m ∈ rows, r.dispatchId ≠ m.dispatchId) ∧
      (∀ e, e ∈ s'.archive ↔ e ∈ s.archive ∨ ∃ m ∈ rows, e = (archiveMonth k m, m)) := by
  induction rows generalizing s with
  | nil => exact ⟨s, rfl, rfl, by simp, by simp⟩
  | cons m more ih =>
    obtain ⟨hfirst, hmore⟩ := List.pairwise_cons.mp hrows
    have hfits : ∀ e ∈ s.archive.rows,
        (e.1, e.2.dispatchId) ≠ (archiveMonth k m, m.dispatchId) :=
      fun e he hsame => hfree m List.mem_cons_self ⟨e, he, congrArg Prod.snd hsame⟩
    cases hinsert : s.archive.insert? (archiveMonth k m, m) with
    | none =>
      obtain ⟨e, he, hclash⟩ := Table.insert?_eq_none_iff.mp hinsert
      exact absurd (hfits e he) hclash
    | some archive =>
      let next : Store := { s with
        runs := s.runs.filter fun other => other.dispatchId ≠ m.dispatchId
        archive := archive }
      have hfree' : ∀ r ∈ more, ¬ Archived r.dispatchId next := by
        rintro r hr ⟨e, he, hid⟩
        rcases (Table.mem_of_insert? hinsert).mp he with hold | rfl
        · exact hfree r (List.mem_cons_of_mem _ hr) ⟨e, hold, hid⟩
        · exact hfirst r hr hid
      obtain ⟨s', hmove, hjournal, hruns, harchive⟩ := ih hfree' hmore
      refine ⟨s', ?_, hjournal, fun r => ?_, fun e => ?_⟩
      · unfold moveRows
        rw [hinsert]
        exact hmove
      · rw [hruns, Table.mem_filter, List.forall_mem_cons, and_assoc]
      · rw [harchive]
        show e ∈ archive ∨ _ ↔ _
        rw [Table.mem_of_insert? hinsert, or_assoc]
        simp only [List.mem_cons, exists_eq_or_imp]

/-- **With one row for each dispatch, a pass moves all that it should.** -/
theorem archiveTerminalRecords_eq_some (k : Retention) (w : World) (hone : OneRow s) :
    ∃ s', archiveTerminalRecords k w s = some s' ∧ s'.journal = s.journal ∧ OneRow s' ∧
      Moved k w.host.now s s' := by
  let settled := s.runs.rows.filter fun r => Archivable k w.host.now r
  have hmem : ∀ r, r ∈ settled ↔ r ∈ s.runs ∧ Archivable k w.host.now r := by
    intro r
    simp [settled, Table.mem_def]
  have hfree : ∀ r ∈ settled, ¬ Archived r.dispatchId s :=
    fun r hr => hone r ((hmem r).mp hr).1
  have hkeys : settled.Pairwise fun a b => a.dispatchId ≠ b.dispatchId := s.runs.pairwise.filter _
  obtain ⟨s', hmove, hjournal, hruns, harchive⟩ := moveRows_eq_some (k := k) hfree hkeys
  refine ⟨s', hmove, hjournal, ?_, ?_, ?_, ?_⟩
  · rintro r hr ⟨e, he, hid⟩
    obtain ⟨hold, hother⟩ := (hruns r).mp hr
    rcases (harchive e).mp he with hcold | ⟨m, hm, rfl⟩
    · exact hone r hold ⟨e, hcold, hid⟩
    · exact hother m hm hid.symm
  · intro r hr hsettled
    have hin := (hmem r).mpr ⟨hr, hsettled⟩
    exact ⟨(harchive _).mpr (.inr ⟨r, hin, rfl⟩), fun hr' => ((hruns r).mp hr').2 r hin rfl⟩
  · intro r hr hopen
    refine (hruns r).mpr ⟨hr, fun m hm hid => ?_⟩
    obtain ⟨hm', hsettled⟩ := (hmem m).mp hm
    exact hopen (KeyedTable.eq_of_key hr hm' hid ▸ hsettled)
  · exact fun e he => (harchive e).mpr (.inl he)

/-! ### Writes -/

theorem oneRow_writeRecord (hone : OneRow s) (hwrite : ¬ Recreates r.dispatchId s) :
    OneRow (s.writeRecord w r) := by
  rintro r' hr' harchived
  rcases List.mem_append.mp hr' with hold | hnew
  · exact hone r' (List.mem_filter.mp hold).1 harchived
  · obtain rfl := List.mem_singleton.mp hnew
    rw [(sameEnd_writtenRow w _ r).dispatchId] at harchived
    refine hwrite ⟨KeyedTable.get?_eq_none.mpr fun old hold hid => ?_, harchived⟩
    exact hone old hold (hid ▸ harchived)

/-- The journal of a later store. -/
def Later (s s' : Store) : Prop := Grows s.journal s'.journal

theorem Later.refl (s : Store) : Later s s := Grows.refl s.journal

theorem Later.trans {s₁ s₂ s₃ : Store} (h : Later s₁ s₂) (h' : Later s₂ s₃) : Later s₁ s₃ :=
  Grows.trans h h'

/-- What every writer keeps: the journal is recorded, and a dispatch has one row. -/
def Sound (s : Store) : Prop := Recorded s.journal ∧ OneRow s

theorem sound_writeRecord (hsound : Sound s) (hwrite : ¬ Recreates r.dispatchId s) :
    Sound (s.writeRecord w r) := ⟨hsound.1, oneRow_writeRecord hsound.2 hwrite⟩

/-- **Every kind of write keeps one row**, under the condition. -/
theorem archive_discipline (commits : CommitEnv) :
    Discipline commits Later Sound NeverRecreates where
  refl := .refl
  trans := .trans
  grows h := h
  recorded h := h.1
  journal hsound hgrows := ⟨hgrows, hgrows.history.recorded hsound.1, hsound.2⟩
  record {s} w r hsound hguard := by
    refine ⟨.refl _, sound_writeRecord hsound ?_⟩
    rw [(sameEnd_merged s r).dispatchId]
    exact hguard
  stamp {s} w known fields hsound hguard := by
    unfold Store.stamp
    simp only
    split
    · exact ⟨.refl _, hsound⟩
    rename_i hopen
    split
    · exact ⟨.refl _, hsound⟩
    rename_i hchanges
    refine ⟨.refl _, sound_writeRecord hsound ?_⟩
    rintro ⟨hnone, harchived⟩
    rw [(sameEnd_update _ fields).dispatchId, dispatchId_known] at hnone harchived
    rw [hnone, Option.getD_none] at hopen hchanges
    exact hguard (not_not.mp hopen) hchanges ⟨hnone, harchived⟩
  finish {s} w a v hsound _ _ := by
    unfold Store.finish
    split
    · exact ⟨.refl _, hsound⟩
    · rename_i r hrow
      refine ⟨.refl _, sound_writeRecord hsound ?_⟩
      rintro ⟨hnone, -⟩
      rw [dispatchId_finishedRow, (KeyedTable.get?_eq_some.mp hrow).2, hrow] at hnone
      cases hnone
  project {s} commits w known v reason hsound hguard _ := by
    refine ⟨.refl _, sound_writeRecord hsound ?_⟩
    rw [dispatchId_terminalRecordProjection, dispatchId_known]
    exact hguard

theorem safe_call (commits : CommitEnv) (c : Call) (s : Store) :
    Safe Later Sound NeverRecreates (c.program commits) s := by
  have d := archive_discipline commits
  cases c with
  | record a => exact d.safe_cmdRecord commits a
  | finish a => exact d.safe_cmdFinish a
  | stamp known fields => exact d.safe_stamp Discipline.later_done
  | reconcile p => exact d.safe_reconcile p
  | write r =>
    refine d.safe_locked (fun w s' _ hsound hguard => ?_) Discipline.later_done
    exact ⟨.refl _, sound_writeRecord hsound hguard⟩
  | archive k =>
    refine d.safe_locked (fun w s' _ hsound _ => ?_) Discipline.later_done
    obtain ⟨s'', hmove, hjournal, hone, -⟩ := archiveTerminalRecords_eq_some k w hsound.2
    show Later s' ((archiveTerminalRecords k w s').getD s') ∧ Sound _
    rw [hmove, Option.getD_some]
    refine ⟨?_, ?_, hone⟩
    · show Grows s'.journal s''.journal
      rw [hjournal]
      exact .refl _
    show Recorded s''.journal
    rw [hjournal]
    exact hsound.1
  | journal op => exact d.safe_journal op

/-- **Archiving never wedges**, in every run of the commands whose writes recreate no row of an
archived dispatch: each dispatch has one row, and a pass moves all that it should. -/
theorem archiving_never_wedges (commits : CommitEnv) {shared : Store}
    (hjournal : shared.journal.Reachable) (hone : OneRow shared) {actions : List Action}
    (hmeets : Machine.Meets (step (Call.program commits))
      (Condition (fun _ => True) NeverRecreates) (idle shared) actions) :
    let s := (run commits (idle shared) actions).shared
    OneRow s ∧ ∀ (k : Retention) (w : World), ∃ s',
      archiveTerminalRecords k w s = some s' ∧ Moved k w.host.now s s' := by
  intro s
  have hbody : ∀ c : Call, True → ∀ s : Store, Sound s →
      Safe Later Sound NeverRecreates (c.program commits) s :=
    fun c _ s _ => safe_call commits c s
  have hstart : AllSafe Later Sound NeverRecreates
      (idle shared : State) := allSafe_idle ⟨hjournal.recorded, hone⟩
  obtain ⟨hend, -⟩ := hstart.run Later.refl Later.trans hbody hmeets
  have hsound : Sound s := hend.inv
  refine ⟨hsound.2, fun k w => ?_⟩
  obtain ⟨s', hmove, -, -, hmoved⟩ := archiveTerminalRecords_eq_some k w hsound.2
  exact ⟨s', hmove, hmoved⟩

/-! ### A row that is recorded again -/

/-- A calendar of one month. -/
def oneMonth : Retention where
  seconds := 1
  month _ := "2026-01"

/-- The world after a time. -/
def worldAt (now : Seconds) : World :=
  { laterWorld with host := { laterWorld.host with now := now }, clock := .at now }

/-- The archiver, at a time. -/
def archiveAt (now : Seconds) : List Action :=
  [.call 1 (.archive oneMonth), .turn 1 (worldAt now)]

def settledStore : Store :=
  { completeStore with
    runs := ⟨[{ completeRow with endedAt := .at 0 }], List.pairwise_singleton _ _⟩ }

theorem oneRow_settledStore : OneRow settledStore := by
  rintro r - ⟨e, he, -⟩
  cases he

/-- A pass over a settled row. -/
theorem archiving_never_wedges_once :
    let s := (run plainCommits (idle settledStore) (archiveAt 9)).shared
    OneRow s ∧ ∀ (k : Retention) (w : World), ∃ s',
      archiveTerminalRecords k w s = some s' ∧ Moved k w.host.now s s' := by
  have hreachable : settledStore.journal.Reachable := ⟨_, rfl⟩
  exact archiving_never_wedges plainCommits hreachable oneRow_settledStore
    ⟨trivial, trivial, trivial⟩

/-- **An archived dispatch that is recorded again wedges the archiver**: `cmd_record` puts a
second row beside the archived one, and when it has settled no pass moves anything. -/
theorem recorded_again_wedges :
    let s := (run plainCommits (idle settledStore)
      (archiveAt 9 ++ recordAgain "complete")).shared
    endedJournal.Reachable ∧ OneRow settledStore ∧ ¬ OneRow s ∧
      archiveTerminalRecords oneMonth (worldAt 9) s = none := by
  intro s
  have hreachable : endedJournal.Reachable := ⟨_, rfl⟩
  refine ⟨hreachable, oneRow_settledStore, fun hone => ?_, ?_⟩
  · have hrow : "d" ∈ s.runs.rows.map LedgerRow.dispatchId := by decide +kernel
    have hcold : "d" ∈ s.archive.rows.map fun e => e.2.dispatchId := by decide +kernel
    obtain ⟨r, hr, hid⟩ := List.mem_map.mp hrow
    obtain ⟨e, he, hid'⟩ := List.mem_map.mp hcold
    exact hone r hr ⟨e, he, hid'.trans hid.symm⟩
  · decide +kernel

end GoalFlight.Ledger
