import GoalFlight.Fleet.Freed

/-!
# Fleet: runs over one dispatch

In every careful run the locks of the dispatch are freed after proof, and salvage stays recorded.

`account_lock_freed_after_proof` is the result about runs, and `salvage_replaced` a run whose last
step is not careful.
-/

namespace GoalFlight.Fleet

open Json Relational
open GoalFlight.Capacity (successTerminalRecordStates failureTerminalRecordStates
  wedgedTerminalRecordStates)
open GoalFlight.Dispatch (textOf salvageNeededStates isTerminalState)

variable {isoSeconds : String → Option ℤ} {tokenText : ℕ → String} {target : Target}

/-! ### Runs -/

theorem FleetState.kept_start (notes : DispatchMeta) (locks : LockFiles)
    (hnotes : notes.mirrorStale = false) :
    (FleetState.start notes locks).store.Kept isoSeconds target where
  readable := trivial
  stopped := fun hs => by
    rw [show (FleetState.start notes locks).store.notes.mirrorStale = false from hnotes] at hs
    cases hs
  behind := fun r hr => by cases hr
  written := rfl
  verdicts := fun w hw => by cases hw
  listed := fun w hw => by cases hw
  salvage := nofun
  dead := nofun
  confirmed := nofun
  fresh := by
    rintro ⟨p, hp⟩
    cases hp
  rightly := rfl

/-- **A careful step keeps the invariant.** -/
theorem FleetState.kept_step {s : FleetState} (h : s.store.Kept isoSeconds target) {a : FleetAction}
    (hcareful : Careful isoSeconds tokenText target s a) :
    (s.step isoSeconds tokenText target a).store.Kept isoSeconds target := by
  unfold FleetState.step
  cases a with
  | sync x =>
    simp only
    split
    · exact h
    · rename_i store action hin
      exact (h.ingestDispatchMirror hcareful hin).1
  | watch p => exact h
  | poll p x =>
    simp only
    split
    · exact h.watchRound hcareful p _
    · exact h
  | release p clock =>
    simp only
    split
    · rename_i state htold
      unfold Careful at hcareful
      simp only [htold] at hcareful
      exact h.releaseLockOnConfirmedTerminal hcareful clock
    · exact h
  | reconcile mutate sshReachable waited clock => exact h.reconcileDispatch hcareful clock
  | locks locks => exact h.locks locks

/-- **An account lock is freed after proof**, and salvage stays recorded, in every run of careful
steps. -/
theorem account_lock_freed_after_proof (isoSeconds : String → Option ℤ) (tokenText : ℕ → String)
    (target : Target) (launchUnconfirmed : Bool) (launchReceipt : Option Receipt)
    (remoteStateDir remoteStatusPath billingAccount : String)
    (worktreePath accountKey accountLockFencingToken : Option String) (locks : LockFiles)
    (actions : List FleetAction)
    (hcareful : Machine.Meets (FleetState.step isoSeconds tokenText target)
      (Careful isoSeconds tokenText target)
      (.start (registerDispatchMeta launchUnconfirmed launchReceipt remoteStateDir remoteStatusPath
        billingAccount worktreePath accountKey accountLockFencingToken) locks) actions) :
    rightly target.dispatchId
      (Machine.run (FleetState.step isoSeconds tokenText target)
        (.start (registerDispatchMeta launchUnconfirmed launchReceipt remoteStateDir
          remoteStatusPath billingAccount worktreePath accountKey accountLockFencingToken) locks)
        actions).store.history = true := by
  have hstep : ∀ (s : FleetState) (a : FleetAction), s.store.Kept isoSeconds target →
      Careful isoSeconds tokenText target s a →
        (s.step isoSeconds tokenText target a).store.Kept isoSeconds target :=
    fun _ _ h hok => FleetState.kept_step h hok
  exact (Machine.run_invariant_of_meets hstep (FleetState.kept_start _ locks rfl) hcareful).rightly

/-- A worker's status. -/
def workerStatus (dispatchId state : String) (seq : ℤ) : Document :=
  (Mapping.empty.set "schema" (textDocument statusMirrorSchema)
    |>.set "dispatch_id" (textDocument dispatchId)
    |>.set "state" (textDocument state)
    |>.set "epoch" (textDocument "status-a")
    |>.set "seq" (intDocument seq)).document

/-- A poll that fetches a status. -/
def fetches (state : String) (seq : ℤ) (porcelain : PorcelainAnswer) : Answers where
  fetch := .fetched (some (workerStatus "d" state seq))
  identity := .unavailable
  porcelain := porcelain
  waited := true
  quiet := false
  timedOut := false
  source := ⟨none, "0"⟩
  now := "2026-01-01T00:00:00Z"
  clock := 5000000

/-- The lock of the dispatch's account. -/
def dispatchLock : AccountLock where
  accountKey := "claude/main"
  ownerDispatchId := "d"
  ownerControllerId := "host:1"
  fencingToken := 3
  remoteLeaseId := none
  state := .active
  expiresAt := 100
  renewedAt := 0

/-- The locks with that one. -/
def dispatchLocks : LockFiles := KeyedTable.set Table.empty dispatchLock

/-- The notes of a launch that was confirmed. -/
abbrev launchedMeta : DispatchMeta :=
  registerDispatchMeta false (some ⟨some 42⟩) "/state" "/state/d/status.json" "claude/main"
    (some "/work/d") (some "claude/main") (some "3")

/-- A watch sees the end of a dispatch and releases its lock. -/
theorem account_lock_freed_after_complete :
    rightly "d" (Machine.run (FleetState.step (fun _ => none) (fun n => toString n) ⟨"d", none⟩)
      (.start launchedMeta dispatchLocks)
      [.sync (fetches "running" 3 .clean), .watch 0, .poll 0 (fetches "complete" 5 .clean),
        .release 0 6000000]).store.history = true :=
  account_lock_freed_after_proof _ _ ⟨"d", none⟩ false _ _ _ _ _ _ _ _ _ (by decide +kernel)

/-- **A record of salvage is replaced**, and the lock freed without a check: a watch sees a failure
over a dirty worktree, a sync takes in one more status of the worker, and a reconciliation releases
what the class of that status allows. -/
theorem salvage_replaced :
    let step := FleetState.step (fun _ => none) (fun n => toString n) ⟨"d", none⟩
    let start := FleetState.start launchedMeta dispatchLocks
    let failed := [.watch 0, .poll 0 (fetches "failed" 5 (.dirty " M src/a.py"))]
    let replaced := failed ++ [.sync (fetches "failed" 7 (.dirty " M src/a.py")),
      .reconcile true true true 6000000]
    mirrorState (fun _ => none) (Machine.run step start failed).store.file =
        some "salvage_needed" ∧
      rightly "d" (Machine.run step start failed).store.history = true ∧
      rightly "d" (Machine.run step start replaced).store.history = false ∧
      (Machine.run step start replaced).store.history.head? =
        some (.released dispatchLock false) := by
  decide +kernel

end GoalFlight.Fleet
