import GoalFlight.Ledger.Reconcile

/-!
# Ledger: which rows a pass ends

A turn that ends the attempt of an open row does so after a missed deadline, after the death
of the recorded process, or because the identity that is compared is not the one recorded for
the pid.  `reconcile_justified` has the last as the exact condition: the pid and the
identity come from two fallback chains, and only where an identity of that pid says the same
is the process gone.
-/

namespace GoalFlight.Ledger

open Json Json.Value GoalFlight.Dispatch Relational

namespace Turn

/-- **The turn makes the first terminal commit** of an attempt whose row was open. -/
structure Terminalizes (p : Scope) (t : Turn) (v : TerminalCommit) : Prop where
  key : t.row.terminalKey ∈ openTerminalKeys
  committed : (t.commit p).1 = some (.ok v)
  first : v.idempotent = false

/-- The attempt that is ended missed its deadline before a worker ran, or the process recorded
for the dispatch is gone. -/
def Justified (p : Scope) (worker : Option Value) (t : Turn) (v : TerminalCommit) : Prop :=
  (∃ a ∈ t.journal.attempts, a.attemptId = v.attemptId ∧
    TerminalRequest.Expired a p.reconcileAt) ∨
    WorkerGone t.moment.host worker t.row

/-- The turn comes to an open row whose attempt is live and within its deadline. -/
structure Reaches (p : Scope) (t : Turn) : Prop where
  key : t.row.terminalKey ∈ openTerminalKeys
  launch : t.launch = none
  attempts : ∀ a ∈ t.journal.attempts, a.dispatchId = t.row.dispatchId →
    (∃ s, a.lifecycle = .live s) ∧ ¬ TerminalRequest.Expired a p.reconcileAt

/-- **What the turn goes by was recorded for the process.**  With a terminal status file:
where the identity that is taken contradicts the process with the pid that is taken, so does
an identity recorded for that pid.  Without one: the row's state does not say dead of a process
that is not. -/
def ReadsRecorded (worker : Option Value) (t : Turn) : Prop :=
  match terminalSidecarObservation t.moment.toWorld t.row with
  | some _ => ∀ pid current, (recordPid t.row).truthy = true → (recordPid t.row).int? = some pid →
      t.moment.host.processIdentity pid = .running current →
      Contradicts t.moment.host pid (recordIdentity t.row) →
        ∃ identity, RecordedIdentity worker t.row pid identity ∧ StartDiffers identity current
  | none => t.row.state = "worker_dead" → WorkerGone t.moment.host worker t.row

end Turn

variable {p : Scope} {t : Turn} {v : TerminalCommit} {h : Host} {r : LedgerRow}
  {worker : Option Value} {e : Ending}

/-! ### What is taken for dead -/

theorem stale_mem_deadClassifications {reason : IdentityReason}
    (h : "stale_" ++ reason.text ∈ deadClassifications) : reason = .dead := by
  cases reason with
  | dead => rfl
  | _ => exact absurd h (by decide)

theorem classify_dead {classification : String} (hc : classify h r = some classification)
    (hdead : classification ∈ deadClassifications) :
    r.state = "worker_dead" ∨ ∃ pid, (recordPid r).truthy = true ∧
      (recordPid r).int? = some pid ∧ h.processIdentity pid = .gone := by
  unfold classify at hc
  split at hc
  · obtain ⟨⟨matched, reason⟩, hmatch, hanswer⟩ := Option.map_eq_some_iff.mp hc
    simp only at hanswer
    refine .inr ?_
    have hreason : reason = .dead := by
      split at hanswer
      · exact absurd hdead (by rw [← hanswer]; decide)
      split at hanswer
      · exact absurd hdead (by rw [← hanswer]; decide)
      split at hanswer
      · assumption
      split at hanswer
      · exact absurd hdead (by rw [← hanswer]; decide)
      · rw [← hanswer] at hdead
        exact stale_mem_deadClassifications hdead
    rw [hreason] at hmatch
    exact gone_of_identityMatches hmatch
  split at hc
  · rename_i hterminal
    cases hc
    have hall : ∀ state ∈ deadClassifications, isTerminalState state = true →
        state = "worker_dead" := by decide
    exact .inl (hall r.state hdead hterminal)
  split at hc
  · cases hc
    exact absurd hdead (by decide)
  · obtain ⟨⟨matched, reason⟩, hmatch, hanswer⟩ := Option.map_eq_some_iff.mp hc
    simp only at hanswer
    refine .inr ?_
    have hreason : reason = .dead := by
      split at hanswer
      · exact absurd hdead (by rw [← hanswer]; decide)
      split at hanswer
      · exact absurd hdead (by rw [← hanswer]; decide)
      split at hanswer
      · exact absurd hdead (by rw [← hanswer]; decide)
      split at hanswer
      · exact absurd hdead (by rw [← hanswer]; decide)
      · rw [← hanswer] at hdead
        exact stale_mem_deadClassifications hdead
    rw [hreason] at hmatch
    exact gone_of_identityMatches hmatch

theorem classify_of_state (hstate : r.state = "worker_dead") :
    classify h r = some "worker_dead" := by
  have hdetached : isDetachedControllerDead r = false := by
    unfold isDetachedControllerDead
    rw [hstate]
    exact Bool.and_false _
  unfold classify
  rw [hdetached, if_neg Bool.false_ne_true, hstate]
  rfl

/-! ### What a turn commits -/

theorem Turn.attemptFinal_eq_false (hlaunch : t.launch = none)
    (hcommit : (t.commit p).1 = some (.ok v)) (hfirst : v.idempotent = false) :
    t.attemptFinal = false := by
  unfold Turn.commit at hcommit
  split at hcommit
  · rw [hlaunch] at hcommit
    simp only [Option.some.injEq] at hcommit
    rw [Bool.eq_false_iff]
    intro hfinal
    obtain ⟨a, hfound, hterminal⟩ := (Option.any_eq_true _ _).mp hfinal
    cases hlife : a.lifecycle with
    | live s =>
      rw [hlife] at hterminal
      cases hterminal
    | final columns =>
      have hold := not_first_of_final hfound hlife hcommit
      rw [hfirst] at hold
      cases hold
  · cases hcommit

theorem Turn.expired_of_launch {launch : DispatchAttempt} (hlaunch : t.launch = some launch)
    (hcommit : (t.commit p).1 = some (.ok v)) (hfirst : v.idempotent = false) :
    ∃ a ∈ t.journal.attempts, a.attemptId = v.attemptId ∧
      TerminalRequest.Expired a p.reconcileAt := by
  unfold Turn.commit at hcommit
  split at hcommit
  · rw [hlaunch] at hcommit
    simp only [Option.some.injEq] at hcommit
    unfold runTx at hcommit
    split at hcommit
    · rename_i answer j' htx
      cases hcommit
      obtain ⟨a, ha, -, ⟨hwrite, -⟩ | ⟨columns, -, -, hstanding⟩⟩ := commitTerminal_cases htx
      · obtain ⟨hmem, hid⟩ := Journal.attempt_eq_some.mp ha
        obtain ⟨hexpired, hanswer, -⟩ := writeVerdict_eq_ok hwrite
        refine ⟨a, hmem, ?_, hexpired p.reconcileAt rfl⟩
        rw [hanswer]
        exact hid
      · obtain ⟨-, o, -, hanswer⟩ := standingVerdict_eq_ok hstanding
        rw [hanswer] at hfirst
        cases hfirst
    · cases hcommit
  · cases hcommit

/-- **What an open row ends by**, where the deadline is not missed: a dead process beside a
terminal status file, or one that is classified dead. -/
theorem Turn.dead_of_commit (hkey : t.row.terminalKey ∈ openTerminalKeys)
    (hlaunch : t.launch = none) (hfinal : t.attemptFinal = false)
    (hcommit : (t.commit p).1 = some (.ok v)) :
    (∃ status, terminalSidecarObservation t.moment.toWorld t.row = some status ∧
      ∃ reason, workerIdentityLiveness t.moment.host t.row = some (.dead, reason)) ∨
    (terminalSidecarObservation t.moment.toWorld t.row = none ∧
      ∃ classification ∈ deadClassifications,
        classify t.moment.host t.row = some classification) := by
  have hends : ∃ e, t.judgment = .ends e := by
    unfold Turn.commit at hcommit
    split at hcommit
    · exact ⟨_, ‹_›⟩
    · cases hcommit
  obtain ⟨e, hends⟩ := hends
  unfold Turn.judgment judge at hends
  rw [hlaunch, hfinal] at hends
  split at hends
  · rename_i status hstatus
    rw [if_pos ⟨hkey, Bool.false_ne_true⟩] at hends
    refine .inl ⟨status, hstatus, ?_⟩
    split at hends
    · cases hends
    · exact ⟨_, ‹_›⟩
    · cases hends
  · rename_i hnone
    rw [Option.isSome_none, if_neg Bool.false_ne_true, if_pos hkey] at hends
    refine .inr ⟨hnone, ?_⟩
    split at hends
    · cases hends
    · rename_i classification hclassify
      split at hends
      · exact ⟨classification, ‹_›, hclassify⟩
      · cases hends

theorem Turn.exists_terminalizes (hreaches : t.Reaches p)
    (hfresh : t.moment.draws.Fresh t.journal) (hends : t.judgment = .ends e) :
    ∃ v, t.Terminalizes p v ∧ ∀ a ∈ t.journal.attempts, a.attemptId = v.attemptId →
      ¬ TerminalRequest.Expired a p.reconcileAt := by
  obtain ⟨v, hcommit, hfirst, hid⟩ := exists_commitTerminalAuthority p.commits e hfresh
    fun a ha hdispatch => (hreaches.attempts a ha hdispatch).1
  refine ⟨v, ⟨hreaches.key, ?_, hfirst⟩, fun a ha heq => ?_⟩
  · unfold Turn.commit
    rw [hends, hreaches.launch]
    exact congrArg some hcommit
  · rcases hid with ⟨b, hb, hdispatch, hbid⟩ | hnew
    · have hsame : a = b := by
        have hkey : a.attemptId = b.attemptId := heq.trans hbid.symm
        exact Table.eq_of_not_compat ha hb (fun hc => hc.key hkey) (fun hc => hc.key hkey.symm)
      rw [hsame]
      exact (hreaches.attempts b hb hdispatch).2
    · exact absurd (heq.trans hnew) (hfresh.attempt a ha)

theorem Turn.Reaches.attemptFinal (hreaches : t.Reaches p) : t.attemptFinal = false := by
  rw [Bool.eq_false_iff]
  intro hfinal
  obtain ⟨a, hfound, hterminal⟩ := (Option.any_eq_true _ _).mp hfinal
  obtain ⟨hmem, hdispatch⟩ := attemptForDispatch_eq_some hfound
  obtain ⟨⟨s, hlive⟩, -⟩ := hreaches.attempts a hmem hdispatch
  rw [hlive] at hterminal
  cases hterminal

theorem Turn.reaches_of_terminalizes (hlaunch : t.launch = none) (hterm : t.Terminalizes p v)
    (hexpired : ∀ a ∈ t.journal.attempts, a.attemptId = v.attemptId →
      ¬ TerminalRequest.Expired a p.reconcileAt) : t.Reaches p := by
  refine ⟨hterm.key, hlaunch, fun a ha hdispatch => ?_⟩
  have hfound : t.journal.attemptForDispatch t.row.dispatchId = some a := by
    refine Table.find?_eq_of_unique ha (decide_eq_true hdispatch) fun b hb hp => ?_
    have hsame : b.dispatchId = a.dispatchId := (of_decide_eq_true hp).trans hdispatch.symm
    exact Table.eq_of_not_compat hb ha (fun hc => hc.dispatch hsame)
      (fun hc => hc.dispatch hsame.symm)
  have hfinal := Turn.attemptFinal_eq_false hlaunch hterm.committed hterm.first
  constructor
  · unfold Turn.attemptFinal at hfinal
    rw [hfound, Option.any_some] at hfinal
    cases hlife : a.lifecycle with
    | live s => exact ⟨s, rfl⟩
    | final columns =>
      rw [hlife] at hfinal
      cases hfinal
  · have hcommit := hterm.committed
    unfold Turn.commit at hcommit
    split at hcommit
    · rw [hlaunch] at hcommit
      exact hexpired a ha (attemptId_of_commit hfound (Option.some.inj hcommit)).symm
    · cases hcommit

/-! ### The condition -/

theorem Turn.justified_of_reads (hworker : worker = none ∨ t.row.workerPid.truthy = true)
    (hreads : t.Reaches p → t.ReadsRecorded worker) (hterm : t.Terminalizes p v) :
    t.Justified p worker v := by
  by_cases hexpired : ∃ a ∈ t.journal.attempts, a.attemptId = v.attemptId ∧
      TerminalRequest.Expired a p.reconcileAt
  · exact .inl hexpired
  have hlaunch : t.launch = none := by
    cases hlaunch : t.launch with
    | some launch =>
      exact absurd (Turn.expired_of_launch hlaunch hterm.committed hterm.first) hexpired
    | none => rfl
  have hreaches := Turn.reaches_of_terminalizes hlaunch hterm fun a ha hid hex =>
    hexpired ⟨a, ha, hid, hex⟩
  have hrecorded := hreads hreaches
  unfold Turn.ReadsRecorded at hrecorded
  refine .inr ?_
  have hpid := dispatchPid_eq_recordPid hworker
  rcases Turn.dead_of_commit hterm.key hlaunch hreaches.attemptFinal hterm.committed with
    ⟨status, hstatus, hdead⟩ | ⟨hnone, classification, hmem, hclassify⟩
  · rw [hstatus] at hrecorded
    obtain ⟨pid, hgiven, hint, hcase⟩ := liveness_dead_iff.mp hdead
    refine ⟨pid, hpid ▸ hgiven, hpid ▸ hint, hcase.imp_right ?_⟩
    rintro ⟨current, hrunning, hcontra⟩
    exact ⟨current, hrunning, hrecorded pid current hgiven hint hrunning hcontra⟩
  · rw [hnone] at hrecorded
    rcases classify_dead hclassify hmem with hstate | ⟨pid, hgiven, hint, hgone⟩
    · exact hrecorded hstate
    · exact ⟨pid, hpid ▸ hgiven, hpid ▸ hint, .inl hgone⟩

theorem Turn.reads_of_justified (hworker : worker = none ∨ t.row.workerPid.truthy = true)
    (hfresh : t.moment.draws.Fresh t.journal)
    (hjustified : ∀ v, t.Terminalizes p v → t.Justified p worker v) (hreaches : t.Reaches p) :
    t.ReadsRecorded worker := by
  have hpid := dispatchPid_eq_recordPid hworker
  have hgone : (∃ e, t.judgment = .ends e) → WorkerGone t.moment.host worker t.row := by
    rintro ⟨e, hends⟩
    obtain ⟨v, hterm, hexpired⟩ := Turn.exists_terminalizes hreaches hfresh hends
    rcases hjustified v hterm with ⟨a, ha, hid, hex⟩ | hgone
    · exact absurd hex (hexpired a ha hid)
    · exact hgone
  unfold Turn.ReadsRecorded
  split
  · rename_i status hstatus
    intro pid current hgiven hint hrunning hcontra
    obtain ⟨reason, hdead⟩ := liveness_dead_iff.mpr
      ⟨pid, hgiven, hint, .inr ⟨current, hrunning, hcontra⟩⟩
    have hends : t.judgment = .ends (sidecarEnding status) := by
      unfold Turn.judgment judge
      rw [hstatus, hreaches.attemptFinal, hdead]
      simp only [Bool.false_eq_true, not_false_eq_true, and_true, hreaches.key, if_true]
    obtain ⟨pid', -, hint', hcase⟩ := hgone ⟨_, hends⟩
    rw [hpid] at hint'
    cases hint.symm.trans hint'
    rcases hcase with habsent | ⟨current', hrunning', identity, hidentity, hdiffers⟩
    · rw [hrunning] at habsent
      cases habsent
    · rw [hrunning] at hrunning'
      obtain rfl := Probe.running.inj hrunning'
      exact ⟨identity, hidentity, hdiffers⟩
  · rename_i hnone
    intro hstate
    apply hgone
    refine ⟨deathEnding t.row, ?_⟩
    unfold Turn.judgment judge
    rw [hnone, hreaches.launch, classify_of_state hstate]
    simp only [Option.isSome_none, Bool.false_eq_true, if_false, hreaches.key, if_true]
    rw [if_pos (by decide)]

/-- **Which turns of a pass end work that may live**: exactly those that go by an identity or a
state that was not recorded for the process. -/
theorem reconcile_justified (p : Pass) (files : LedgerFiles) (j : Journal) :
    ∀ t ∈ p.reconcileTerminalOutbox files j,
      let worker := runningWorker j t.row.dispatchId
      ((t.Reaches p.toScope → t.ReadsRecorded worker) →
        ∀ v, t.Terminalizes p.toScope v → t.Justified p.toScope worker v) ∧
      (t.moment.draws.Fresh t.journal →
        (∀ v, t.Terminalizes p.toScope v → t.Justified p.toScope worker v) →
        t.Reaches p.toScope → t.ReadsRecorded worker) := by
  intro t ht
  have hworker : ∀ {v}, t.Terminalizes p.toScope v →
      runningWorker j t.row.dispatchId = none ∨ t.row.workerPid.truthy = true :=
    fun hterm => workerPid_of_running ht hterm.key
  refine ⟨fun hreads v hterm => Turn.justified_of_reads (hworker hterm) hreads hterm, ?_⟩
  intro hfresh hjustified hreaches
  exact Turn.reads_of_justified (workerPid_of_running ht hreaches.key) hfresh hjustified hreaches

/-! ### A worker that is ended while it runs -/

/-- The identity of a worker. -/
def workerOf (token : String) : Value := .obj [("pid", .int 4242), ("start_token", .str token)]

/-- The row of a running worker: its pid, this identity beside it, and a controller. -/
def runningRow (identity : Value) : LedgerRow where
  dispatchId := "d"
  state := "running"
  projectRoot := some "/p"
  workerPid := .int 4242
  workerIdentity := identity
  controllerPid := .int 17
  controllerIdentity := .obj [("pid", .int 17), ("start_token", .str "c")]
  statusPath := .str "status"

/-- Its attempt, with the identity that the worker gave. -/
def runningAttempt : DispatchAttempt where
  attemptId := "a"
  dispatchId := "d"
  lifecycle := .live .running
  launchEpoch := 1
  launchToken := "token"
  workerInstance := some "\x7b\"pid\":4242,\"start_token\":\"w\"\x7d"
  preparedAt := "t0"
  stateUpdatedAt := "t0"
  startDeadlineAt := some "t9"
  ownerControllerLabel := none
  ownerSessionDigest := none
  effectiveAccount := none
  engine := none

def runningJournal : Journal :=
  { Journal.fresh with attempts := ⟨[runningAttempt], List.pairwise_singleton _ _⟩ }

def runningFiles (identity : Value) : LedgerFiles where
  runs := [runningRow identity]
  archived := []
  keyed := List.nodup_singleton _
  settled := fun _ hr => absurd hr List.not_mem_nil

/-- A process with this start token has the pid, and the watcher has given the worker up. -/
def idleMoment (token : String) : Moment where
  host :=
    { now := 0
      processIdentity := fun pid => if pid = 4242 then .running (workerOf token) else .gone }
  statusFile := fun _ => some (.obj [("dispatch_id", .str "d"), ("state", .str "idle_timeout")])
  draws :=
    { freshAttemptId := "b"
      freshToken := "fresh"
      transitionId := "tr"
      event := ⟨"node", "event"⟩
      now := "t1"
      defaultDeadline := "t5" }
  clock := .at 0
  others := id

def idlePass (token : String) : Pass where
  canonicalRoot := "/p"
  rootOf := some
  reconcileAt := "t1"
  commits := { render := fun _ => "", sessionDigest := id }
  moment := fun _ => idleMoment token

/-- The only turn of the pass. -/
def idleTurn (identity : Value) (token : String) : Turn where
  row := runningRow identity
  moment := idleMoment token
  launch := none
  journal := runningJournal

theorem workerInstance_runningAttempt : workerInstance runningAttempt = some (workerOf "w") := by
  decide +kernel

theorem runningWorker_runningJournal : runningWorker runningJournal "d" = some (workerOf "w") := by
  unfold runningWorker
  rw [show runningJournal.attemptForDispatch "d" = some runningAttempt from rfl]
  exact workerInstance_runningAttempt

theorem idlePass_rows (token : String) (identity : Value) :
    (idlePass token).rows (runningFiles identity) runningJournal = [runningRow identity] := by
  unfold Scope.rows
  show withWorkers (idlePass token).toScope [runningAttempt] [runningRow identity] = _
  rw [withWorkers_cons_some workerInstance_runningAttempt]
  rfl

theorem idleTurn_mem (identity : Value) (token : String) :
    idleTurn identity token ∈
      (idlePass token).reconcileTerminalOutbox (runningFiles identity) runningJournal := by
  unfold Pass.reconcileTerminalOutbox
  rw [idlePass_rows, Pass.turns, if_pos ⟨(by decide : "d" ≠ ""), rfl⟩]
  dsimp only
  split <;> exact List.mem_cons_self

theorem mem_runningJournal {a : DispatchAttempt} (ha : a ∈ runningJournal.attempts) :
    a = runningAttempt := List.mem_singleton.mp ha

theorem idleTurn_reaches (identity : Value) (token : String) :
    (idleTurn identity token).Reaches (idlePass token).toScope := by
  refine ⟨?_, rfl, fun a ha _ => ?_⟩
  · show (runningRow .null).terminalKey ∈ openTerminalKeys
    decide
  · rw [mem_runningJournal ha]
    refine ⟨⟨.running, rfl⟩, ?_⟩
    show ¬ TerminalRequest.Expired runningAttempt "t1"
    decide

theorem idleTurn_fresh (identity : Value) (token : String) :
    (idleTurn identity token).moment.draws.Fresh (idleTurn identity token).journal where
  column a ha := by
    rw [mem_runningJournal ha]
    exact nofun
  transition := nofun
  outbox := nofun
  attempt a ha := by
    rw [mem_runningJournal ha]
    show "a" ≠ "b"
    decide

/-- A worker whose own identity says another start is gone, and its attempt is ended. -/
theorem reconcile_justified_reused : ∃ v,
    (idleTurn (workerOf "w") "x").Terminalizes (idlePass "x").toScope v ∧
      (idleTurn (workerOf "w") "x").Justified (idlePass "x").toScope (runningWorker runningJournal "d") v := by
  have hends : ∃ e, (idleTurn (workerOf "w") "x").judgment = .ends e := ⟨_, rfl⟩
  obtain ⟨e, hends⟩ := hends
  obtain ⟨v, hterm, -⟩ := Turn.exists_terminalizes (idleTurn_reaches (workerOf "w") "x")
    (idleTurn_fresh (workerOf "w") "x") hends
  refine ⟨v, hterm, ?_⟩
  refine (reconcile_justified (idlePass "x") (runningFiles (workerOf "w")) runningJournal _
    (idleTurn_mem (workerOf "w") "x")).1 ?_ v hterm
  intro _ pid current _ hint hrunning _
  cases hint
  obtain rfl := Probe.running.inj hrunning
  exact ⟨workerOf "w", recordedIdentity_own fun _ => rfl, by decide⟩

/-- **A running worker is ended**: the identity of the controller, taken for want of the
worker's, names another pid, and the start token of the process is the one that the running
attempt has. -/
theorem reconcile_ends_running :
    ∃ t ∈ (idlePass "w").reconcileTerminalOutbox (runningFiles .null) runningJournal, ∃ v,
      t.Terminalizes (idlePass "w").toScope v ∧
        ¬ t.Justified (idlePass "w").toScope (runningWorker runningJournal t.row.dispatchId) v := by
  have hends : ∃ e, (idleTurn .null "w").judgment = .ends e := ⟨_, rfl⟩
  obtain ⟨e, hends⟩ := hends
  obtain ⟨v, hterm, hexpired⟩ := Turn.exists_terminalizes (idleTurn_reaches .null "w")
    (idleTurn_fresh .null "w") hends
  refine ⟨idleTurn .null "w", idleTurn_mem .null "w", v, hterm, ?_⟩
  rintro (⟨a, ha, hid, hex⟩ | ⟨pid, -, hint, hcase⟩)
  · exact hexpired a ha hid hex
  · cases hint
    rcases hcase with habsent | ⟨current, hrunning, identity, hidentity, hdiffers⟩
    · cases habsent
    · obtain rfl := Probe.running.inj hrunning
      rcases hidentity with ⟨rfl, -⟩ | ⟨hmem, hgiven, hpid⟩
      · exact absurd hdiffers (by decide)
      · have hlist : identity ∈ [Value.null, .null, (runningRow .null).controllerIdentity,
            workerOf "w"] := by
          rw [show (idleTurn .null "w").row.dispatchId = "d" from rfl,
            runningWorker_runningJournal] at hmem
          exact hmem
        simp only [List.mem_cons, List.not_mem_nil, or_false] at hlist
        rcases hlist with rfl | rfl | rfl | rfl
        · cases hgiven
        · cases hgiven
        · exact absurd hpid (by decide)
        · exact absurd hdiffers (by decide)

end GoalFlight.Ledger
