import GoalFlight.Dispatch.Passes
import GoalFlight.Dispatch.Reset

/-!
# Dispatch: the rows a pass writes

A pass writes the row of the claim's dispatch and no other: a restore writes it reset, a
terminal commit ended, and the first time the claim was seen orphaned is stamped on it.
-/

namespace GoalFlight.Dispatch

open Json GoalFlight.Capacity

variable {w : RecoveryWorld} {v : ReconcileWorld} {d : Disk} {c : ClaimPath}
  {e begun fresh prepared : QueueEntry} {r written : LedgerRow} {row : Option LedgerRow}
  {stale : Seconds} {seen : Reading} {admission : PreAdmitClass} {reason id txn : String}
  {script : List DiskWrite} {label : Option String} {b : Bool}

variable {cause : Value} {state : String}

/-! ### The rows a pass writes -/

/-- The row a transaction of a claim starts from. -/
def ReconcileWorld.baseRow (v : ReconcileWorld) (d : Disk) (e : QueueEntry) : LedgerRow :=
  (d.findRecord e.dispatchId).getD (newReconciliationRecord e v.host.now)

theorem dispatchId_baseRow : (v.baseRow d e).dispatchId = e.dispatchId := by
  unfold ReconcileWorld.baseRow
  cases hrow : d.findRecord e.dispatchId with
  | none => rfl
  | some r => exact (Disk.dispatchId_of_findRecord hrow).1

theorem elsewhere_of_mem_finishRestore (hscript : ∀ written, .putRow written ∉ script)
    (hmem : .putRow written ∈ (v.finishRestore d c e prepared txn script).script) :
    written.elsewhere = (v.baseRow d e).elsewhere := by
  unfold ReconcileWorld.finishRestore at hmem
  dsimp only at hmem
  split at hmem
  · exact absurd (mem_publish_putRow.mp hmem) (hscript written)
  · split at hmem
    · obtain hmem | hmem := List.mem_append.mp hmem
      · exact absurd hmem (hscript written)
      · split at hmem <;> simp at hmem
    · split at hmem
      · exact absurd hmem (hscript written)
      · obtain hmem | hmem := List.mem_append.mp (mem_publish_putRow.mp hmem)
        · exact absurd hmem (hscript written)
        · obtain rfl := DiskWrite.putRow.inj (List.mem_singleton.mp hmem)
          rfl

theorem elsewhere_of_mem_restoreOpen
    (hmem : .putRow written ∈ (v.restoreOpen d c e b).script) :
    written.elsewhere = (v.baseRow d e).elsewhere := by
  cases hrow : d.findRecord e.dispatchId with
  | some r =>
    unfold ReconcileWorld.baseRow
    rw [hrow]
    exact (keptIn_of_mem_restoreOpen hrow hmem).elsewhere
  | none =>
    unfold ReconcileWorld.restoreOpen at hmem
    dsimp only at hmem
    rw [hrow] at hmem
    split at hmem
    · split at hmem
      · simp at hmem
      · split at hmem
        · simp at hmem
        · split at hmem
          · exact elsewhere_of_mem_finishRestore (by simp) hmem
          · simp at hmem
    · simp at hmem
    · dsimp only [Option.filter_none] at hmem
      split at hmem
      · simp at hmem
      · exact elsewhere_of_mem_finishRestore (by simp) hmem

theorem elsewhere_of_mem_commitRestore
    (hmem : .putRow written ∈ (v.commitRestore d begun c e b).script) :
    written.elsewhere = (v.baseRow d e).elsewhere := by
  have hundecided : .putRow written ∈ (v.restoreUndecided d c e b).script →
      written.elsewhere = (v.baseRow d e).elsewhere := by
    intro hmem
    unfold ReconcileWorld.restoreUndecided at hmem
    split at hmem
    · split at hmem
      · simp at hmem
      · rename_i unlink hunlink
        exact absurd hmem (putRow_notMem_unlinkTarget hunlink)
    · exact elsewhere_of_mem_restoreOpen hmem
  unfold ReconcileWorld.commitRestore at hmem
  split at hmem
  · simp at hmem
  · split at hmem
    · split at hmem
      · exact absurd hmem putRow_notMem_deferClaim
      · split at hmem
        · split at hmem
          · simp at hmem
          · rename_i unlink hunlink
            exact absurd hmem (putRow_notMem_unlinkTarget hunlink)
        · exact hundecided hmem
    · exact hundecided hmem

theorem mem_commitEnd_putRow (hmem : .putRow written ∈ (w.commitEnd r state).script) :
    written = r := by
  unfold RecoveryWorld.commitEnd at hmem
  split at hmem
  · simp at hmem
  · split at hmem
    · simp at hmem
    · simpa using hmem

/-- A terminal commit writes the base row, ended: with the cause it is given, or with that of
the completion authority. -/
theorem mem_commitReconciledTerminal_putRow
    (hmem : .putRow written ∈ (w.commitReconciledTerminal d begun e state cause).script) :
    ∃ win, written = (w.baseRow d e).ended win ∨
      written = (w.baseRow d e).finished state cause win ∨
      ∃ decision, (w.authorityOn d).entryCompletionAuthority e (some (w.baseRow d e)) {} =
          some decision ∧
        written = (w.baseRow d e).finished decision.state (.str decision.reason) win := by
  unfold RecoveryWorld.commitReconciledTerminal at hmem
  dsimp only at hmem
  split at hmem
  · simp at hmem
  · split at hmem
    · simp at hmem
    · split at hmem
      · exact ⟨_, .inl (mem_commitEnd_putRow hmem)⟩
      · split at hmem
        · split at hmem
          · simp at hmem
          · exact ⟨_, .inr (.inl (mem_commitEnd_putRow hmem))⟩
        · rename_i decision hdecision
          split at hmem
          · simp at hmem
          · split at hmem
            · simp at hmem
            · exact ⟨_, .inr (.inr ⟨decision, hdecision, mem_commitEnd_putRow hmem⟩)⟩

@[simp] theorem dispatchId_withCause :
    (r.withCause cause).dispatchId = r.dispatchId := by
  unfold LedgerRow.withCause
  split
  · rfl
  · rfl
  · split <;> rfl

@[simp] theorem dispatchId_finished {win : TerminalCommit} :
    (r.finished state cause win).dispatchId = r.dispatchId :=
  dispatchId_withCause

theorem mem_commitClaimTerminal_putRow {force : Option String}
    (hmem : .putRow written ∈ (w.commitClaimTerminal d begun e reason force).script) :
    ∃ state cause, (cause = .str reason ∨ w.outputOutcome e = some (state, cause)) ∧
      .putRow written ∈ (w.commitReconciledTerminal d begun e state cause).script := by
  unfold RecoveryWorld.commitClaimTerminal at hmem
  dsimp only at hmem
  split at hmem
  · rename_i state _
    exact ⟨state, _, .inl rfl, hmem⟩
  · cases houtput : w.outputOutcome e with
    | none =>
      rw [houtput] at hmem
      exact ⟨_, _, .inl rfl, hmem⟩
    | some found =>
      rw [houtput] at hmem
      exact ⟨_, _, .inr rfl, hmem⟩

/-- Every row of the script is of the dispatch. -/
def RowsOf (id : String) (script : List DiskWrite) : Prop :=
  ∀ written, .putRow written ∈ script → written.dispatchId = id

theorem RowsOf.append {script' : List DiskWrite} (h : RowsOf id script)
    (h' : RowsOf id script') : RowsOf id (script ++ script') := by
  intro written hmem
  obtain hmem | hmem := List.mem_append.mp hmem
  · exact h written hmem
  · exact h' written hmem

theorem RowsOf.of_rowless (h : ∀ written, .putRow written ∉ script) : RowsOf id script := by
  intro written hmem
  exact absurd hmem (h written)

theorem rowsOf_commitRestore : RowsOf e.dispatchId (v.commitRestore d begun c e b).script := by
  intro written hmem
  have hsame : written.elsewhere.dispatchId = (v.baseRow d e).elsewhere.dispatchId := by
    rw [elsewhere_of_mem_commitRestore hmem]
  exact hsame.trans dispatchId_baseRow

theorem rowsOf_commitClaimTerminal {force : Option String} :
    RowsOf e.dispatchId (w.commitClaimTerminal d begun e reason force).script := by
  intro written hmem
  obtain ⟨state, cause, -, hmem⟩ := mem_commitClaimTerminal_putRow hmem
  obtain ⟨win, rfl | rfl | ⟨decision, -, rfl⟩⟩ := mem_commitReconciledTerminal_putRow hmem
  · exact dispatchId_baseRow
  · exact dispatchId_finished.trans dispatchId_baseRow
  · exact dispatchId_finished.trans dispatchId_baseRow

theorem putRow_notMem_quarantineClaim :
    .putRow written ∉ (w.quarantineClaim d c e reason).script := by
  have hunlink : .putRow written ∉ (if w.faults.claimUnlink = true then
      (⟨[], false⟩ : Outcome Bool) else ⟨[.unlink (.claim c)], true⟩).script := by
    split <;> simp
  have hmove : ∀ dest parked, .putRow written ∉ (if w.faults.quarantineWrite = true then
      (⟨[], false⟩ : Outcome Bool)
      else (if w.faults.claimUnlink = true then (⟨[], false⟩ : Outcome Bool)
        else ⟨[.unlink (.claim c)], true⟩).following [.quarantine dest parked]).script := by
    intro dest parked
    split
    · simp
    · intro hmem
      obtain hmem | hmem := List.mem_append.mp hmem
      · simp at hmem
      · exact hunlink hmem
  unfold RecoveryWorld.quarantineClaim
  dsimp only
  split
  · exact hmove _ _
  · split
    · exact hunlink
    · split
      · simp
      · exact hmove _ _

theorem putRow_notMem_quarantineOrphan :
    .putRow written ∉ (w.quarantineOrphan d c e row reason stale).script := by
  unfold RecoveryWorld.quarantineOrphan
  split
  · simp
  · split
    · split <;> simp
    · split
      · simp
      · exact putRow_notMem_quarantineClaim

theorem rowsOf_quarantineOr : RowsOf id (w.quarantineOr d c e row reason stale).script :=
  .of_rowless fun _ => putRow_notMem_quarantineOrphan

theorem rowsOf_clear : RowsOf id (w.clear c).script := by
  refine .of_rowless ?_
  intro written hmem
  cases sparing_of_mem_clear hmem

theorem rowsOf_nil : RowsOf id [] := by
  intro written hmem
  cases hmem

theorem rowsOf_endClaim : RowsOf e.dispatchId (w.endClaim d begun c e row reason stale).script := by
  unfold RecoveryWorld.endClaim
  split
  · exact rowsOf_quarantineOr
  · split
    · split
      · exact rowsOf_clear
      · exact rowsOf_nil
    · exact rowsOf_nil
    · dsimp only
      split
      · exact rowsOf_commitClaimTerminal.append rowsOf_clear
      · exact rowsOf_commitClaimTerminal

theorem rowsOf_endDecided {decision : CompletionDecision} :
    RowsOf e.dispatchId (w.endDecided d begun c e row decision reason stale).script := by
  unfold RecoveryWorld.endDecided
  split
  · exact rowsOf_quarantineOr
  · dsimp only
    split
    · refine rowsOf_commitClaimTerminal.append (.of_rowless ?_)
      intro written
      split <;> simp
    · exact rowsOf_commitClaimTerminal

theorem rowsOf_restoreOrEnd :
    RowsOf e.dispatchId (w.restoreOrEnd d begun c e reason stale).script := by
  unfold RecoveryWorld.restoreOrEnd
  dsimp only
  split
  · split
    · exact rowsOf_commitRestore
    · exact rowsOf_commitRestore.append rowsOf_endDecided
    · exact rowsOf_commitRestore.append rowsOf_endClaim
  · exact rowsOf_endClaim

theorem rowsOf_settle : RowsOf e.dispatchId (w.settle d begun c e reason stale).script := by
  unfold RecoveryWorld.settle
  dsimp only
  split
  · split
    · exact rowsOf_clear
    · exact rowsOf_quarantineOr
  · split
    · split
      · exact .of_rowless fun _ => putRow_notMem_deferClaim
      · split
        · exact rowsOf_commitClaimTerminal
        · split
          · exact rowsOf_commitClaimTerminal.append rowsOf_clear
          · exact rowsOf_commitClaimTerminal.append rowsOf_quarantineOr
    · exact rowsOf_restoreOrEnd

theorem rowsOf_carryStamp {carried : List DiskWrite}
    (hcarried : w.carryStamp d begun e admission = some carried) :
    RowsOf e.dispatchId carried := by
  intro written hmem
  obtain rfl | ⟨r, hr, -, rfl⟩ := carryStamp_cases hcarried
  · cases hmem
  · obtain rfl := DiskWrite.putRow.inj (List.mem_singleton.mp hmem)
    exact (Disk.dispatchId_of_findRecord hr).1

theorem rowsOf_stampClaim : RowsOf e.dispatchId (w.stampClaim d begun c e admission) := by
  intro written hmem
  unfold RecoveryWorld.stampClaim at hmem
  split at hmem
  · cases hmem
  obtain hmem | hmem := List.mem_cons.mp hmem
  · cases hmem
  cases hrow : d.findRecord e.dispatchId with
  | none =>
    rw [hrow] at hmem
    cases hmem
  | some r =>
    rw [hrow] at hmem
    change _ ∈ (w.stampRow begun r admission
      (e.seenOrphan w.host.now).orphanFirstSeenAt).getD [] at hmem
    cases hscript : w.stampRow begun r admission (e.seenOrphan w.host.now).orphanFirstSeenAt with
    | none =>
      rw [hscript] at hmem
      cases hmem
    | some script =>
      rw [hscript] at hmem
      obtain ⟨hwritten, -⟩ := mem_stampRow hscript hmem
      obtain rfl := DiskWrite.putRow.inj hwritten
      exact (Disk.dispatchId_of_findRecord hrow).1

theorem rowsOf_reconcile (hfile : d.file (.claim c) = some (.entry e)) :
    RowsOf e.dispatchId (w.reconcile d seen c reason stale).script := by
  unfold RecoveryWorld.reconcile
  dsimp only
  split
  · refine .of_rowless ?_
    intro written hmem
    unfold RecoveryWorld.positiveCleanup at hmem
    split at hmem
    · cases hmem
    · split at hmem
      · cases hmem
      · rw [hfile] at hmem
        dsimp only at hmem
        split at hmem
        · cases hmem
        · split at hmem
          · cases hmem
          · split at hmem
            · cases hmem
            · cases sparing_of_mem_clear hmem
  split
  · exact rowsOf_nil
  rw [hfile]
  dsimp only
  split
  · exact rowsOf_nil
  unfold RecoveryWorld.reconcileHeld
  split
  · exact rowsOf_nil
  rename_i carried hcarried
  dsimp only
  split
  · split
    · exact (rowsOf_carryStamp hcarried).append rowsOf_settle
    · exact (rowsOf_carryStamp hcarried).append rowsOf_stampClaim
  · split
    · exact rowsOf_carryStamp hcarried
    · exact (rowsOf_carryStamp hcarried).append rowsOf_settle

end GoalFlight.Dispatch
