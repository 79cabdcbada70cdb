import GoalFlight.Dispatch.Rows

/-!
# Dispatch: a drain that still runs keeps its claim

A claim whose drain is alive is left alone by every other pass, as long as it does not look
abandoned: the passes look at the launcher, the worker and the age, and a claim just made of
an envelope that waited long has neither launcher nor worker, and the age of the envelope.
-/

namespace GoalFlight.Dispatch

open Json GoalFlight.Capacity Machine

variable {w : RecoveryWorld} {v : ReconcileWorld} {d : Disk} {c : ClaimPath}
  {e begun fresh prepared : QueueEntry} {r written : LedgerRow} {row : Option LedgerRow}
  {stale : Seconds} {seen : Reading} {admission : PreAdmitClass} {reason id txn : String}
  {script : List DiskWrite} {label : Option String} {b : Bool}

/-! ### Who ends a dispatch as exhausted -/

/-- The row does not say that the recoveries of the claim were used up. -/
def LedgerRow.Unexhausted (r : LedgerRow) : Prop := r.reason ≠ .str "claim_recovery_exhausted"

/-- The dispatch did not end as exhausted. -/
def Disk.Unexhausted (d : Disk) (id : String) : Prop :=
  ∀ r, d.findRecord id = some r → r.Unexhausted

/-- The rows of the dispatch in the script do not say so. -/
def UnexhaustedRows (id : String) (script : List DiskWrite) : Prop :=
  ∀ written, .putRow written ∈ script → written.dispatchId = id → written.Unexhausted

theorem UnexhaustedRows.of_rowless (h : ∀ written, .putRow written ∉ script) :
    UnexhaustedRows id script := by
  intro written hmem
  exact absurd hmem (h written)

theorem UnexhaustedRows.append {script' : List DiskWrite} (h : UnexhaustedRows id script)
    (h' : UnexhaustedRows id script') : UnexhaustedRows id (script ++ script') := by
  intro written hmem
  obtain hmem | hmem := List.mem_append.mp hmem
  · exact h written hmem
  · exact h' written hmem

theorem UnexhaustedRows.of_other {other : String} (hrows : RowsOf other script)
    (hne : other ≠ id) : UnexhaustedRows id script := by
  intro written hmem hid
  exact absurd ((hrows written hmem).symm.trans hid) hne

theorem unexhausted_write {write : DiskWrite} (hd : d.Unexhausted id)
    (hrows : UnexhaustedRows id [write]) : (d.write write).Unexhausted id := by
  intro r hr
  cases write with
  | put p e => exact hd r hr
  | unlink p => exact hd r hr
  | claim c =>
    rw [Disk.findRecord_claim] at hr
    exact hd r hr
  | quarantine dest q => exact hd r hr
  | finish id' => exact hd r hr
  | putRow written =>
    by_cases hid : written.dispatchId = id
    · obtain ⟨-, hne⟩ := Disk.dispatchId_of_findRecord hr
      subst hid
      rw [Disk.findRecord_putRow_self d hne] at hr
      cases hr
      have hwritten := hrows written (List.mem_singleton.mpr rfl) rfl
      unfold LedgerRow.keepingEnd
      split
      · exact hwritten
      · exact hwritten
    · rw [Disk.findRecord_putRow_of_ne d (Ne.symm hid)] at hr
      exact hd r hr

theorem throughout_unexhausted (hd : d.Unexhausted id) (hrows : UnexhaustedRows id script) :
    Throughout Disk.write (Disk.Unexhausted · id) d script := by
  induction script generalizing d with
  | nil => exact hd
  | cons write script ih =>
    have hfirst : UnexhaustedRows id [write] := by
      intro written hmem
      exact hrows written (List.mem_cons.mpr (.inl (List.mem_singleton.mp hmem)))
    refine ⟨hd, ih (unexhausted_write hd hfirst) ?_⟩
    intro written hmem
    exact hrows written (List.mem_cons.mpr (.inr hmem))

theorem reason_of_authority {a : AuthorityWorld} {record : Option LedgerRow} {mode : ScanMode}
    {decision : CompletionDecision}
    (h : a.entryCompletionAuthority e record mode = some decision) :
    decision.reason ≠ "claim_recovery_exhausted" := by
  have hmarker : ∀ kind : String,
      "marker:" ++ kind ++ ":final_reconciliation" ≠ "claim_recovery_exhausted" := by
    intro kind heq
    have hlist := congrArg String.toList heq
    rw [String.toList_append, String.toList_append] at hlist
    have hhead := congrArg List.head? hlist
    revert hhead
    simp
  have hown : ∀ row, a.ownAuthority e row = some decision →
      decision.reason ≠ "claim_recovery_exhausted" := by
    intro row hsome
    unfold AuthorityWorld.ownAuthority at hsome
    obtain hrow | ⟨-, houtput⟩ := Option.or_eq_some_iff.mp hsome
    · obtain ⟨r, -, hr⟩ := Option.bind_eq_some_iff.mp hrow
      unfold rowAuthority at hr
      split at hr
      · cases hr
        simp
      · split at hr
        · split at hr
          · cases hr
            simp
          · cases hr
            simp
          · cases hr
        · cases hr
    · unfold AuthorityWorld.outputAuthority at houtput
      split at houtput
      · cases houtput
      · split at houtput
        · cases houtput
          exact hmarker _
        · cases houtput
  unfold AuthorityWorld.entryCompletionAuthority at h
  split at h
  · cases h
    simp
  · rename_i row _
    obtain hsome | ⟨-, htask⟩ := Option.or_eq_some_iff.mp h
    · exact hown row hsome
    · unfold AuthorityWorld.taskAuthority at htask
      split at htask
      · cases htask
        simp
      · cases htask
        simp
      · unfold deferredAuthority at htask
        split at htask
        · cases htask
        · split at htask
          · cases htask
            simp [completionAuthorityTimestampUnreadable]
          · cases htask
            dsimp only
            split <;> simp
      · cases htask
      · cases htask

/-- The output of a claim does not name the reason of an exhausted claim. -/
def RecoveryWorld.PlainOutput (w : RecoveryWorld) : Prop :=
  ∀ e state cause, w.outputOutcome e = some (state, cause) →
    cause ≠ .str "claim_recovery_exhausted"

theorem unexhausted_baseRow (hd : d.Unexhausted id) (hid : e.dispatchId = id) :
    (v.baseRow d e).Unexhausted := by
  unfold ReconcileWorld.baseRow
  cases hrow : d.findRecord e.dispatchId with
  | none =>
    intro hreason
    cases hreason
  | some r =>
    rw [hid] at hrow
    exact hd r hrow

theorem unexhausted_withCause {cause : Value} (hr : r.Unexhausted)
    (hcause : cause ≠ .str "claim_recovery_exhausted") : (r.withCause cause).Unexhausted := by
  unfold LedgerRow.withCause
  split
  · exact hr
  · exact hr
  · split
    · exact hr
    · exact hcause

theorem unexhausted_commitRestore (hd : d.Unexhausted id) :
    UnexhaustedRows id (v.commitRestore d begun c e b).script := by
  intro written hmem hid
  have hsame : written.elsewhere.reason = (v.baseRow d e).elsewhere.reason := by
    rw [elsewhere_of_mem_commitRestore hmem]
  have hreason : written.reason = (v.baseRow d e).reason := hsame
  have hfor := rowsOf_commitRestore written hmem
  unfold LedgerRow.Unexhausted
  rw [hreason]
  exact unexhausted_baseRow hd (hfor.symm.trans hid)

theorem unexhausted_commitClaimTerminal {force : Option String} (hd : d.Unexhausted id)
    (hplain : w.PlainOutput) (hreason : reason ≠ "claim_recovery_exhausted") :
    UnexhaustedRows id (w.commitClaimTerminal d begun e reason force).script := by
  intro written hmem hid
  have hfor := rowsOf_commitClaimTerminal written hmem
  have hbase : (w.baseRow d e).Unexhausted := unexhausted_baseRow hd (hfor.symm.trans hid)
  obtain ⟨state, cause, hcause, hmem⟩ := mem_commitClaimTerminal_putRow hmem
  obtain ⟨win, rfl | rfl | ⟨decision, hdecision, rfl⟩⟩ :=
    mem_commitReconciledTerminal_putRow hmem
  · exact hbase
  · refine unexhausted_withCause (r := (w.baseRow d e).ended win) hbase ?_
    obtain rfl | houtput := hcause
    · intro heq
      exact hreason (Value.str.inj heq)
    · exact hplain e state cause houtput
  · refine unexhausted_withCause (r := (w.baseRow d e).ended win) hbase ?_
    intro heq
    exact reason_of_authority hdecision (Value.str.inj heq)

theorem reason_of_commitRestore {decision : CompletionDecision}
    (h : (v.commitRestore d begun c e b).result = .decided decision) :
    decision.reason ≠ "claim_recovery_exhausted" := by
  have hpublish : ∀ prepared label script,
      (v.publish d c prepared label script).result ≠ .decided decision := by
    intro prepared label script
    unfold ReconcileWorld.publish
    dsimp only
    split
    · simp
    · split <;> simp
  have hexisting : ∀ r, decision = existingTerminalDecision r →
      decision.reason ≠ "claim_recovery_exhausted" := by
    rintro r rfl
    simp [existingTerminalDecision]
  have hfinish : ∀ prepared txn script,
      (v.finishRestore d c e prepared txn script).result = .decided decision →
        decision.reason ≠ "claim_recovery_exhausted" := by
    intro prepared txn script hfinish
    unfold ReconcileWorld.finishRestore at hfinish
    dsimp only at hfinish
    split at hfinish
    · exact absurd hfinish (hpublish _ _ _)
    · split at hfinish
      · exact hexisting _ (RestoreResult.decided.inj hfinish).symm
      · split at hfinish
        · cases hfinish
        · exact absurd hfinish (hpublish _ _ _)
  have hopen : (v.restoreOpen d c e b).result = .decided decision →
      decision.reason ≠ "claim_recovery_exhausted" := by
    intro hopen
    unfold ReconcileWorld.restoreOpen at hopen
    dsimp only at hopen
    split at hopen
    · split at hopen
      · cases hopen
      · split at hopen
        · split at hopen
          · split at hopen <;> cases hopen
          · cases hopen
        · split at hopen
          · exact hfinish _ _ _ hopen
          · cases hopen
    · cases hopen
    · split at hopen
      · unfold ReconcileWorld.requeueNamed at hopen
        dsimp only at hopen
        split at hopen <;> cases hopen
      · split at hopen
        · cases hopen
        · exact hfinish _ _ _ hopen
  have hundecided : (v.restoreUndecided d c e b).result = .decided decision →
      decision.reason ≠ "claim_recovery_exhausted" := by
    intro hundecided
    unfold ReconcileWorld.restoreUndecided at hundecided
    split at hundecided
    · split at hundecided
      · cases hundecided
      · exact hexisting _ (RestoreResult.decided.inj hundecided).symm
    · exact hopen hundecided
  unfold ReconcileWorld.commitRestore at h
  split at h
  · cases h
  · split at h
    · rename_i decision' hdecision
      split at h
      · obtain rfl := RestoreResult.decided.inj h
        exact reason_of_authority hdecision
      · split at h
        · split at h
          · cases h
          · obtain rfl := RestoreResult.decided.inj h
            exact reason_of_authority hdecision
        · exact hundecided h
    · exact hundecided h

theorem unexhausted_release {own : QueueEntry} (hd : d.Unexhausted id)
    (hplain : w.PlainOutput) : UnexhaustedRows id (w.release d seen c own stale) := by
  have hnil : UnexhaustedRows id [] := by
    intro written hmem
    cases hmem
  unfold RecoveryWorld.release
  split
  swap
  · exact hnil
  unfold RecoveryWorld.restoreIfIncomplete
  dsimp only
  split
  · exact hnil
  split
  swap
  · exact hnil
  rename_i fresh _
  split
  · exact hnil
  have hrestore : UnexhaustedRows id
      (w.commitRestore d seen.entry c fresh false).script := unexhausted_commitRestore hd
  split
  · rename_i decision hdecision
    split
    · exact hrestore
    · split
      · exact hrestore.append (.of_rowless fun _ => putRow_notMem_quarantineOrphan)
      · have hafter : (d.after (w.commitRestore d seen.entry c fresh false).script).Unexhausted id :=
          (throughout_unexhausted hd hrestore).finish
        have hcommit : UnexhaustedRows id
            (w.commitClaimTerminal (d.after (w.commitRestore d seen.entry c fresh false).script)
              seen.entry fresh decision.reason (some decision.state)).script :=
          unexhausted_commitClaimTerminal hafter hplain (reason_of_commitRestore hdecision)
        split
        · exact hrestore.append hcommit
        · refine (hrestore.append hcommit).append (.of_rowless ?_)
          intro written
          split <;> simp
  · exact hrestore

theorem launchFailure_ne : launchFailure reason ≠ "claim_recovery_exhausted" := by
  intro heq
  have hlist := congrArg String.toList heq
  unfold launchFailure at hlist
  rw [String.toList_append] at hlist
  have hhead := congrArg List.head? hlist
  revert hhead
  simp

theorem unexhausted_countFailure {id' : String} {failures : ℕ} (hd : d.Unexhausted id) :
    UnexhaustedRows id (w.countFailure d id' reason failures) := by
  intro written hmem hid
  unfold RecoveryWorld.countFailure at hmem
  split at hmem
  · rename_i r hr
    obtain ⟨hr, -⟩ := Option.filter_eq_some_iff.mp hr
    obtain rfl := DiskWrite.putRow.inj (List.mem_singleton.mp hmem)
    obtain ⟨hid', -⟩ := Disk.dispatchId_of_findRecord hr
    rw [← hid', show r.dispatchId = id from hid] at hr
    exact hd r hr
  · cases hmem

theorem unexhausted_finishFailed {id' : String} (hd : d.Unexhausted id) :
    UnexhaustedRows id (w.finishFailed d id' (launchFailure reason)) := by
  intro written hmem hid
  unfold RecoveryWorld.finishFailed at hmem
  split at hmem
  · rename_i r hr
    obtain ⟨hr, -⟩ := Option.filter_eq_some_iff.mp hr
    obtain rfl := mem_commitEnd_putRow hmem
    obtain ⟨hid', -⟩ := Disk.dispatchId_of_findRecord hr
    rw [dispatchId_finished] at hid
    rw [← hid', hid] at hr
    refine unexhausted_withCause (r := r.ended _) (hd r hr) ?_
    intro heq
    exact launchFailure_ne (Value.str.inj heq)
  · cases hmem

/-! ### Every run -/

/-- The drain that made a claim is alive. -/
def Host.ClaimerAlive (h : Host) (e : QueueEntry) : Prop :=
  h.Alive e.queueClaimerPid e.queueClaimerIdentity

/-- The child that launches a claim is alive. -/
def Host.LauncherAlive (h : Host) (e : QueueEntry) : Prop :=
  h.Alive e.queueLauncherPid e.queueLauncherIdentity

/-- No pass takes up, at this step, a claim whose drain is alive. -/
def LeavesClaimers (d : Disk) (a : PassAction × ℕ) : Prop :=
  match a.1 with
  | .recover w seen c stale =>
    ∀ e, d.file (.claim c) = some (.entry e) → w.host.ClaimerAlive e →
      ¬ w.TakesUp d seen e stale
  | _ => True

/-- A recovery spares, at this step, a claim whose drain or launcher is alive. -/
def SparesHeld (d : Disk) (a : PassAction × ℕ) : Prop :=
  match a.1 with
  | .recover w seen c stale =>
    ∀ e, d.file (.claim c) = some (.entry e) →
      w.host.ClaimerAlive e ∨ w.host.LauncherAlive e →
        ∀ write ∈ passScript d (.recover w seen c stale), w.Sparing d c e write
  | _ => True

/-- Every claim of the dispatch that a pass finds is of a drain that is alive; nobody but a
recovery ends the dispatch as exhausted. -/
def HeldThroughout (id : String) (d : Disk) (a : PassAction × ℕ) : Prop :=
  match a.1 with
  | .recover w _ c _ =>
    ∀ e, d.file (.claim c) = some (.entry e) → e.dispatchId = id → w.host.ClaimerAlive e
  | .release w _ _ _ _ => w.PlainOutput
  | .record r => r.dispatchId = id → r.Unexhausted
  | _ => True

theorem not_takesUp_of_launcherAlive (halive : w.host.LauncherAlive e) :
    ¬ w.TakesUp d seen e stale := by
  intro htakes
  exact Host.not_idle_of_alive halive htakes.abandoned.launcher

theorem reconcile_of_unread (hfile : ∀ e, d.file (.claim c) ≠ some (.entry e)) :
    (w.reconcile d seen c reason stale).script = [] := by
  unfold RecoveryWorld.reconcile
  dsimp only
  split
  · unfold RecoveryWorld.positiveCleanup
    split
    · rfl
    · split
      · rfl
      · split
        · rename_i e he
          exact absurd he (hfile e)
        · rfl
  · split
    · rfl
    · split
      · rename_i e he
        exact absurd he (hfile e)
      · rfl

theorem sparesHeld_of_leavesClaimers {a : PassAction × ℕ} (h : LeavesClaimers d a) :
    SparesHeld d a := by
  obtain ⟨action, k⟩ := a
  cases action with
  | recover w seen c stale =>
    intro e hfile halive write hmem
    refine sparing_of_not_takesUp hfile ?_ hmem
    obtain hclaimer | hlauncher := halive
    · exact h e hfile hclaimer
    · exact not_takesUp_of_launcherAlive hlauncher
  | _ => trivial

theorem unexhausted_passScript {a : PassAction × ℕ} (hd : d.Unexhausted id)
    (hleaves : LeavesClaimers d a) (hheld : HeldThroughout id d a) :
    UnexhaustedRows id (passScript d a.1) := by
  obtain ⟨action, k⟩ := a
  cases action with
  | claim c token pid identity =>
    refine .of_rowless ?_
    intro written
    show _ ∉ claimScript d c token pid identity
    unfold claimScript
    split <;> simp
  | stamp c token s =>
    refine .of_rowless ?_
    intro written
    show _ ∉ stampScript d c token s
    unfold stampScript
    split
    · split <;> simp
    · simp
  | release w seen c own stale => exact unexhausted_release hd hheld
  | countFailure w id' reason failures => exact unexhausted_countFailure hd
  | finishFailed w id' reason => exact unexhausted_finishFailed hd
  | failClaim w c observed =>
    refine .of_rowless ?_
    intro written
    show _ ∉ w.failClaim d c observed
    unfold RecoveryWorld.failClaim
    dsimp only
    split
    · split
      · simp
      · split <;> simp
    · split
      · simp
      · split <;> simp
  | recover w seen c stale =>
    by_cases hread : ∃ e, d.file (.claim c) = some (.entry e)
    · obtain ⟨e, hfile⟩ := hread
      by_cases hid : e.dispatchId = id
      · intro written hmem _
        have halive := hheld e hfile hid
        have hsparing := sparing_of_not_takesUp hfile (hleaves e hfile halive) hmem
        cases hsparing with
        | rowStamped r stamp hrow =>
          rw [hid] at hrow
          exact hd r hrow
      · exact .of_other (rowsOf_reconcile hfile) hid
    · have hnil : passScript d (.recover w seen c stale) = [] :=
        reconcile_of_unread fun e he => hread ⟨e, he⟩
      rw [show passScript d ((PassAction.recover w seen c stale, k) : PassAction × ℕ).1 = []
        from hnil]
      intro written hmem
      cases hmem
  | record r =>
    intro written hmem hid
    obtain rfl := DiskWrite.putRow.inj (List.mem_singleton.mp hmem)
    exact hheld hid

/-- **A drain that still runs keeps its claim**, in every run in which no pass takes up a claim
whose drain is alive.  Every recovery then spares every claim whose drain or launcher is
alive, and no dispatch whose claims are all of drains that are alive ends as exhausted. -/
theorem claimer_keeps_claim (d : Disk) (steps : List (PassAction × ℕ))
    (hleaves : Meets passStep LeavesClaimers d steps) :
    Meets passStep SparesHeld d steps ∧
      ∀ id, d.Unexhausted id → Meets passStep (HeldThroughout id) d steps →
        (run passStep d steps).Unexhausted id := by
  refine ⟨?_, ?_⟩
  · have hstep : ∀ (d : Disk) (a : PassAction × ℕ), True → LeavesClaimers d a →
        True ∧ SparesHeld d a := by
      intro d a _ hok
      exact ⟨trivial, sparesHeld_of_leavesClaimers hok⟩
    exact meets_of_invariant hstep trivial hleaves
  · intro id hd hheld
    have hstep : ∀ (d : Disk) (a : PassAction × ℕ), d.Unexhausted id →
        LeavesClaimers d a ∧ HeldThroughout id d a → (passStep d a).Unexhausted id := by
      rintro d a hd ⟨hleaves, hheld⟩
      exact throughout_iff_take.mp
        (throughout_unexhausted hd (unexhausted_passScript hd hleaves hheld)) a.2
    exact run_invariant_of_meets hstep hd (hleaves.and hheld)

/-! ### Runs of two drains -/

/-- The identity of a drain. -/
def drainIdentity (pid : ℤ) (start : String) : Value :=
  .obj [("pid", .int pid), ("start_token", .str start)]

/-- A host on which two drains run. -/
def twoDrains (now : Seconds) : Host where
  now := now
  processIdentity p :=
    if p = 41 then .running (drainIdentity 41 "s41")
    else if p = 43 then .running (drainIdentity 43 "s43")
    else .gone

/-- A pass of one of the two. -/
def drainPass (now : Seconds) (txn : String) : RecoveryWorld where
  toReconcileWorld := plainTransaction (twoDrains now) txn

/-- An envelope that was made at a time, and the row of its dispatch. -/
def envelopeMadeAt (created : Seconds) : Disk :=
  Disk.empty.after [.putRow queuedRow, .put (.envelope "d1")
    { dispatchId := "d1", state := "queued", projectRoot := some "/p", taskIds := ["t1"],
      dispatchArgv := ["run"], createdAt := .at created }]

/-- A claim as a pass reads it. -/
def readingOf (d : Disk) (host : Host) (c : ClaimPath) : Reading :=
  match d.file (.claim c) with
  | some (.entry e) => ⟨host, d.findRecord e.dispatchId, e⟩
  | _ => ⟨host, none, {}⟩

/-- One drain claims the envelope and the other comes by. -/
def claimThenPass (d : Disk) (c : ClaimPath) (token : String) (pid : ℤ) (start : String)
    (now : Seconds) (txn : String) : List (PassAction × ℕ) :=
  let claim : PassAction × ℕ := (.claim c token pid (drainIdentity pid start), 2)
  [claim, (.recover (drainPass now txn) (readingOf (passStep d claim) (twoDrains now) c) c 120, 9)]

/-- Where the envelope is not old enough, the claim stays. -/
theorem claimer_keeps_young_claim :
    Meets passStep SparesHeld (envelopeMadeAt 950)
        (claimThenPass (envelopeMadeAt 950) ⟨"d1", "41"⟩ "tA" 41 "s41" 1000 "x1") ∧
      (run passStep (envelopeMadeAt 950) (claimThenPass (envelopeMadeAt 950) ⟨"d1", "41"⟩ "tA" 41
        "s41" 1000 "x1")).Unexhausted "d1" := by
  have hfile : (passStep (envelopeMadeAt 950) (.claim ⟨"d1", "41"⟩ "tA" 41
      (drainIdentity 41 "s41"), 2)).file (.claim ⟨"d1", "41"⟩) = some (.entry
        { dispatchId := "d1", state := "claimed", projectRoot := some "/p", taskIds := ["t1"],
          dispatchArgv := ["run"], createdAt := .at 950, queueLaunchToken := some "tA",
          queueClaimerPid := .int 41, queueClaimerIdentity := drainIdentity 41 "s41" }) := by
    decide +kernel
  have hleaves : Meets passStep LeavesClaimers (envelopeMadeAt 950)
      (claimThenPass (envelopeMadeAt 950) ⟨"d1", "41"⟩ "tA" 41 "s41" 1000 "x1") := by
    refine ⟨trivial, ?_, trivial⟩
    intro e he _ htakes
    obtain rfl := QueueFileContent.entry.inj (Option.some.inj (hfile.symm.trans he))
    have hold : max 0 120 ≤ ageAt 1000 950 := htakes.oldEnough
    revert hold
    decide +kernel
  have hkeeps := claimer_keeps_claim (envelopeMadeAt 950) _ hleaves
  refine ⟨hkeeps.1, hkeeps.2 "d1" ?_ ?_⟩
  · intro r hr
    have hrow : (envelopeMadeAt 950).findRecord "d1" = some queuedRow := by decide +kernel
    cases hrow.symm.trans hr
    intro hreason
    cases hreason
  · refine ⟨trivial, ?_, trivial⟩
    intro e he _
    obtain rfl := QueueFileContent.entry.inj (Option.some.inj (hfile.symm.trans he))
    refine ⟨41, drainIdentity 41 "s41", by decide, rfl, ?_⟩
    rintro (hdiffers | hdiffers)
    · revert hdiffers
      decide
    · revert hdiffers
      decide

/-- Both drains claim the envelope in turn, and each takes up the claim of the other. -/
def bothPasses : List (PassAction × ℕ) :=
  let first := claimThenPass (envelopeMadeAt 100) ⟨"d1", "41"⟩ "tA" 41 "s41" 1000 "x1"
  first ++ claimThenPass (run passStep (envelopeMadeAt 100) first) ⟨"d1", "43"⟩ "tB" 43 "s43"
    1010 "x2"

/-- The first claim as the other pass finds it. -/
def firstClaim : QueueEntry :=
  { dispatchId := "d1", state := "claimed", projectRoot := some "/p", taskIds := ["t1"],
    dispatchArgv := ["run"], createdAt := .at 100, queueLaunchToken := some "tA",
    queueClaimerPid := .int 41, queueClaimerIdentity := drainIdentity 41 "s41" }

/-- The second claim, of the envelope the first was restored to. -/
def secondClaim : QueueEntry :=
  { firstClaim with
    restoreTxnId := some "x1"
    claimRecoveryCount := .int 1
    queueLaunchToken := some "tB"
    queueClaimerPid := .int 43
    queueClaimerIdentity := drainIdentity 43 "s43" }

/-- **A claim that is lost.**  The envelope is older than the limit when it is claimed, so each
claim looks abandoned at once.  The first is restored and counted, the second ends the
dispatch as exhausted; both drains run all along. -/
theorem claimer_loses_claim :
    Meets passStep (HeldThroughout "d1") (envelopeMadeAt 100) bothPasses ∧
      ¬ Meets passStep SparesHeld (envelopeMadeAt 100) bothPasses ∧
      (envelopeMadeAt 100).Unexhausted "d1" ∧
      ¬ (run passStep (envelopeMadeAt 100) bothPasses).Unexhausted "d1" := by
  have hfirst : (run passStep (envelopeMadeAt 100) (bothPasses.take 1)).file
      (.claim ⟨"d1", "41"⟩) = some (.entry firstClaim) := by decide +kernel
  have hsecond : (run passStep (envelopeMadeAt 100) (bothPasses.take 3)).file
      (.claim ⟨"d1", "43"⟩) = some (.entry secondClaim) := by decide +kernel
  have halive : (twoDrains 1000).ClaimerAlive firstClaim := by
    refine ⟨41, drainIdentity 41 "s41", by decide, rfl, ?_⟩
    rintro (hdiffers | hdiffers)
    · revert hdiffers
      decide
    · revert hdiffers
      decide
  refine ⟨⟨trivial, ?_, trivial, ?_, trivial⟩, ?_, ?_, ?_⟩
  · intro e he _
    obtain rfl := QueueFileContent.entry.inj (Option.some.inj (hfirst.symm.trans he))
    exact halive
  · intro e he _
    obtain rfl := QueueFileContent.entry.inj (Option.some.inj (hsecond.symm.trans he))
    refine ⟨43, drainIdentity 43 "s43", by decide, rfl, ?_⟩
    rintro (hdiffers | hdiffers)
    · revert hdiffers
      decide
    · revert hdiffers
      decide
  · rintro ⟨-, hspares, -⟩
    have hput : .put (.envelope "d1") ((firstClaim.sanitized true).envelope "queued" "x1") ∈
        passScript (run passStep (envelopeMadeAt 100) (bothPasses.take 1))
          (.recover (drainPass 1000 "x1") (readingOf (run passStep (envelopeMadeAt 100)
            (bothPasses.take 1)) (twoDrains 1000) ⟨"d1", "41"⟩) ⟨"d1", "41"⟩ 120) := by
      decide +kernel
    cases hspares firstClaim hfirst (.inl halive) _ hput
  · intro r hr
    have hrow : (envelopeMadeAt 100).findRecord "d1" = some queuedRow := by decide +kernel
    cases hrow.symm.trans hr
    intro hreason
    cases hreason
  · intro hunexhausted
    have hend : ((run passStep (envelopeMadeAt 100) bothPasses).findRecord "d1").map
        LedgerRow.reason = some (.str "claim_recovery_exhausted") := by decide +kernel
    obtain ⟨r, hr, hreason⟩ := Option.map_eq_some_iff.mp hend
    exact hunexhausted r hr hreason

end GoalFlight.Dispatch
