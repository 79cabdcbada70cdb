import GoalFlight.Dispatch.Evidence

/-!
# Dispatch: closing abandoned dispatches

`reconcile_abandoned_dispatches` evaluates every running row of the ledger, and a row that looks
abandoned a second time under the queue, the capacity and the ledger lock.  Before the commit it
scans the tail for a terminal marker once more and compares the progress fingerprints.

Each of these reads finds a world of its own.  `reconcile_closes_ownerless` has what the evidence
read under the locks says of every dispatch that is closed.
-/

namespace GoalFlight.Dispatch

open Json Checks GoalFlight.Capacity

variable {w : World} {row : LedgerRow}

/-! ### One evaluation -/

/-- The reasons to keep a row. -/
inductive KeepReason
  | missingDispatchId
  | alreadyTerminal
  | notRunningState
  | nonlocalTransport
  | nonlocalOrUnknownHost
  | deadClaimer
  | unknownClaimer
  | activeQueueCarrier
  | statusIndeterminate
  | outputIndeterminate
  | workerLiveOrIndeterminate (evidence : ProcessVeto)
  | workerIdentityIndeterminate
  | leaseLiveOrIndeterminate
  | controllerIndeterminate
  | controllerLiveOrIndeterminate
  | progressTimeIndeterminate
  | recentProgress
  | queueLockBusy
  | ledgerLockBusy
  | recordDisappeared
  | progressChangedBeforeClose
  | statusChangedBeforeClose
  | dryRun
  | raised

/-- What an evaluation of an eligible row returns. -/
structure Evaluation where
  basis : ProcessBasis
  marker : Option Marker
  controllerGone : Bool
  fingerprint : List PathPrint

/-- The status of the row, if there is one. -/
def World.status (w : World) (row : LedgerRow) : Option StatusSidecar :=
  (abandonedStatusPayload w.statusFiles row.dispatchId row.statusPath).toOption

/-- `status or {}`. -/
def World.statusOrEmpty (w : World) (row : LedgerRow) : StatusSidecar :=
  (w.status row).getD { dispatchId := "" }

/-- `_abandoned_carrier_keep_reason`. -/
def World.requireNoCarrier (w : World) (row : LedgerRow) : Except KeepReason PUnit :=
  match w.host.claimHasActiveCarrier w.queue row.dispatchId with
  | none => .error .raised
  | some .none => .ok ⟨⟩
  | some .dead => .error .deadClaimer
  | some .unknown => .error .unknownClaimer
  | some _ => .error .activeQueueCarrier

/-- A pid that counts for `_abandoned_worker_pid_present`. -/
def isWorkerPid (pid : Value) : Bool :=
  !pid.isAbsent && match pid with
    | .bool _ => false
    | _ => true

/-- `_abandoned_worker_pid_present`. -/
def World.workerPidPresent (w : World) (row : LedgerRow) : Bool :=
  isWorkerPid row.workerPid || isWorkerPid (w.statusOrEmpty row).workerPid

/-- The reason an undecided controller keeps the row for. -/
def controllerKeepReason : ControllerVeto → KeepReason
  | .controllerIndeterminate | .controllerIdentityAbsent => .controllerIndeterminate
  | _ => .controllerLiveOrIndeterminate

/-- The owner is gone, or a marker stands in for it. -/
def requireController (controller : Except ControllerVeto ControllerBasis)
    (marker : Option Marker) : Except KeepReason PUnit :=
  match controller with
  | .ok _ => .ok ⟨⟩
  | .error veto => require (marker.isSome = true) (controllerKeepReason veto)

/-- The last progress is old enough. -/
def requireStale (progress : Option Seconds) (now stale : Seconds) : Except KeepReason PUnit :=
  match progress with
  | none => .error .progressTimeIndeterminate
  | some latest => require (stale ≤ now - latest) .recentProgress

/-- `_evaluate_abandoned_dispatch`. -/
def World.evaluate (w : World) (row : LedgerRow) (now stale : Seconds) :
    Except KeepReason Evaluation := do
  require (row.dispatchId ≠ "") .missingDispatchId
  require (row.isTerminal = false) .alreadyTerminal
  require (isRunningState row.state = true) .notRunningState
  require (row.transport = "dispatch") .nonlocalTransport
  require (row.hostname = some w.hostname) .nonlocalOrUnknownHost
  w.requireNoCarrier row
  -- a marker of a dead worker stands in for a status that cannot be read
  let stranded := if (w.status row).isNone then w.terminalMarker row else none
  require ((w.status row).isSome = true ∨ stranded.isSome = true) .statusIndeterminate
  require (w.outputEvidence row = true) .outputIndeterminate
  let basis ← (w.processEvidence row (w.statusOrEmpty row)).mapError .workerLiveOrIndeterminate
  require (stranded.isNone = true ∨ w.workerPidPresent row = true) .workerIdentityIndeterminate
  require (w.leaseEvidence row = true) .leaseLiveOrIndeterminate
  -- and for a controller that is not proven gone
  let marker :=
    match w.controllerEvidence row with
    | .ok _ => stranded
    | .error _ => stranded.or (w.terminalMarker row)
  requireController (w.controllerEvidence row) marker
  requireStale (w.latestProgress row (w.statusOrEmpty row)) now stale
  pure
    { basis := basis
      marker := marker
      controllerGone := (w.controllerEvidence row).isOk
      fingerprint := w.fingerprint row }

/-! ### What an evaluation finds -/

/-- The output file the row names is readable, or is not there. -/
def World.OutputSettled (w : World) (row : LedgerRow) : Prop :=
  ∃ path, row.stdoutPath = .str path ∧ path ≠ "" ∧
    (w.outputFile path = .readable ∨ w.outputFile path = .absent)

/-- Progress was measured, and all of it is at least `stale` seconds old. -/
def World.ProgressStale (w : World) (row : LedgerRow) (now stale : Seconds) : Prop :=
  w.progressTimes row (w.statusOrEmpty row) ≠ [] ∧
    ∀ t ∈ w.progressTimes row (w.statusOrEmpty row), stale ≤ now - t

/-- Who the evaluation goes by: the status is readable and the owner is gone, or there is a
terminal marker, and then a worker is recorded where there is no status. -/
def World.Authorized (w : World) (row : LedgerRow) : Prop :=
  ((w.status row).isSome = true ∧ w.ControllerGone row) ∨
    ((w.terminalMarker row).isSome = true ∧
      ((w.status row).isNone = true → w.workerPidPresent row = true))

/-- **The evidence of an eligible row.** -/
structure World.Ownerless (w : World) (row : LedgerRow) (now stale : Seconds) : Prop where
  named : row.dispatchId ≠ ""
  running : row.isTerminal = false ∧ isRunningState row.state = true
  onThisHost : row.transport = "dispatch" ∧ row.hostname = some w.hostname
  carriers : ∃ fs, w.queue = .files fs ∧ w.host.carriersById fs row.dispatchId = []
  descendants : (descendantProbes row.producerDescendants).isSome = true
  processes : ∀ process ∈ recordedProcesses row (w.statusOrEmpty row), w.Inactive process
  leases : w.LeasesOver row
  output : w.OutputSettled row
  progress : w.ProgressStale row now stale
  authority : w.Authorized row

theorem World.outputSettled_of_outputEvidence (h : w.outputEvidence row = true) :
    w.OutputSettled row := by
  unfold World.outputEvidence at h
  split at h
  · rename_i path hpath
    rw [Bool.and_eq_true, Bool.or_eq_true, decide_eq_true_eq, decide_eq_true_eq,
      decide_eq_true_eq] at h
    exact ⟨path, hpath, h.1, h.2⟩
  · cases h

theorem World.progressStale_of_requireStale {now stale : Seconds}
    (h : requireStale (w.latestProgress row (w.statusOrEmpty row)) now stale = .ok ⟨⟩) :
    w.ProgressStale row now stale := by
  unfold World.latestProgress requireStale at h
  split at h
  · cases h
  · rename_i latest hlatest
    have hold : stale ≤ now - latest := require_eq_ok.mp h
    refine ⟨?_, ?_⟩
    · intro hnone
      rw [hnone] at hlatest
      cases hlatest
    · intro t ht
      have hle : t ≤ latest := (List.max?_eq_some_iff.mp hlatest).2 t ht
      exact hold.trans (sub_le_sub_left hle now)

theorem World.carriers_of_requireNoCarrier (hid : row.dispatchId ≠ "")
    (h : w.requireNoCarrier row = .ok ⟨⟩) :
    ∃ fs, w.queue = .files fs ∧ w.host.carriersById fs row.dispatchId = [] := by
  unfold World.requireNoCarrier at h
  split at h
  · cases h
  · rename_i hnone
    exact (w.host.claimHasActiveCarrier_eq_none_iff hid).mp hnone
  all_goals cases h

/-- **An eligible row.**  What the evaluation read, and what it returns. -/
theorem World.ownerless_of_evaluate {now stale : Seconds} {e : Evaluation}
    (h : w.evaluate row now stale = .ok e) :
    w.Ownerless row now stale ∧ e.fingerprint = w.fingerprint row := by
  unfold World.evaluate at h
  simp only [require_bind_eq_ok] at h
  obtain ⟨hnamed, hopen, hrunning, htransport, hhost, h⟩ := h
  obtain ⟨⟨⟩, hcarrier, h⟩ := bind_eq_ok.mp h
  simp only [require_bind_eq_ok] at h
  obtain ⟨hstatus, houtput, h⟩ := h
  obtain ⟨basis, hprocess, h⟩ := bind_eq_ok.mp h
  simp only [require_bind_eq_ok] at h
  obtain ⟨hworker, hlease, h⟩ := h
  obtain ⟨⟨⟩, hcontroller, h⟩ := bind_eq_ok.mp h
  obtain ⟨⟨⟩, hprogress, h⟩ := bind_eq_ok.mp h
  cases h
  have hinactive : (descendantProbes row.producerDescendants).isSome = true ∧
      ∀ process ∈ recordedProcesses row (w.statusOrEmpty row), w.Inactive process := by
    cases hevidence : w.processEvidence row (w.statusOrEmpty row) with
    | error veto =>
      rw [hevidence] at hprocess
      cases hprocess
    | ok found => exact w.inactive_of_processEvidence hevidence
  have hauthorized : w.Authorized row := by
    unfold World.Authorized
    cases hread : w.status row with
    | none =>
      -- the marker that stands in for the status was read with a recorded worker
      rw [hread] at hstatus hworker
      have hmarker : (w.terminalMarker row).isSome = true := by
        simpa using hstatus
      refine .inr ⟨hmarker, ?_⟩
      intro _
      refine hworker.resolve_left ?_
      cases hm : w.terminalMarker row with
      | none =>
        rw [hm] at hmarker
        cases hmarker
      | some m => simp
    | some s =>
      cases hevidence : w.controllerEvidence row with
      | ok found => exact .inl ⟨rfl, w.controllerGone_of_controllerEvidence hevidence⟩
      | error veto =>
        rw [hread, hevidence] at hcontroller
        have hmarker : (w.terminalMarker row).isSome = true := by
          simpa using require_eq_ok.mp hcontroller
        exact .inr ⟨hmarker, nofun⟩
  refine ⟨?_, rfl⟩
  exact
    { named := hnamed
      running := ⟨hopen, hrunning⟩
      onThisHost := ⟨htransport, hhost⟩
      carriers := w.carriers_of_requireNoCarrier hnamed hcarrier
      descendants := hinactive.1
      processes := hinactive.2
      leases := w.leasesOver_of_leaseEvidence hlease
      output := w.outputSettled_of_outputEvidence houtput
      progress := w.progressStale_of_requireStale hprogress
      authority := hauthorized }

/-! ### Closing one dispatch -/

/-- One dispatch in one pass, with the world each of the reads finds: the first evaluation,
the one under the locks, the scan after it, and the second scan of a tail that changed. -/
structure ReconcileRun where
  dryRun : Bool
  now : Seconds
  stale : Seconds
  initial : LedgerRow
  first : World
  queueLock : Bool
  ledgerLock : Bool
  fresh : Option LedgerRow
  final : World
  post : World
  stable : World

/-- A dispatch that is closed. -/
structure Closure where
  row : LedgerRow
  marker : Option Marker

/-- `_abandoned_terminal_outcome`: the state and reason a marker stands for. -/
def terminalOutcome (marker : Option Marker) : String × Option String :=
  match marker with
  | none => ("inconclusive_no_final", some "abandoned_without_verdict")
  | some m => (m.state, m.reason)

/-- `_commit_abandoned_dispatch` raises for a state that is not terminal. -/
def requireTerminal (marker : Option Marker) : Except KeepReason PUnit :=
  let outcome := terminalOutcome marker
  require (terminalStateFor outcome.1 outcome.2 ∉ ["", "unknown", "watcher_stopped"]) .raised

namespace ReconcileRun

variable (r : ReconcileRun)

/-- The tail alone moved since the evaluation, and a marker is found in it that a second
scan finds again in an unchanged tail. -/
def TailSettled (row : LedgerRow) : Prop :=
  changedProgressKeys (r.final.fingerprint row) (r.post.fingerprint row) = [.stdoutPath] ∧
    (r.post.terminalMarker row).isSome = true ∧
    r.stable.fingerprint row = r.post.fingerprint row ∧
    (r.stable.terminalMarker row).isSome = true

instance (row : LedgerRow) : Decidable (r.TailSettled row) :=
  inferInstanceAs (Decidable (_ ∧ _ ∧ _ ∧ _))

/-- What follows the second evaluation, up to the commit. -/
def settle (row : LedgerRow) : Except KeepReason Closure := do
  let marker := r.post.terminalMarker row
  require (marker.isNone = true ∨ r.post.workerPidPresent row = true) .workerIdentityIndeterminate
  require ((r.post.status row).isSome = true ∨ marker.isSome = true) .statusChangedBeforeClose
  if changedProgressKeys (r.final.fingerprint row) (r.post.fingerprint row) = [] then
    pure ⟨row, marker⟩
  else do
    require (r.TailSettled row) .progressChangedBeforeClose
    pure ⟨row, r.stable.terminalMarker row⟩

/-- `reconcile_abandoned_dispatches`, for one row: the dispatch that is committed as
terminal. -/
def close : Except KeepReason Closure := do
  let before ← r.first.evaluate r.initial r.now r.stale
  require (r.queueLock = true) .queueLockBusy
  require (r.ledgerLock = true) .ledgerLockBusy
  match r.fresh with
  | none => .error .recordDisappeared
  | some row => do
      let after ← r.final.evaluate row r.now r.stale
      require (after.fingerprint = before.fingerprint) .progressChangedBeforeClose
      let closure ← r.settle row
      require (r.dryRun = false) .dryRun
      requireTerminal closure.marker
      pure closure

/-- The files of the row did not move between the second evaluation and the commit, its tail
aside when it settled with a marker. -/
def Unmoved (row : LedgerRow) : Prop :=
  ∀ key, r.final.pathPrint (row.progressPath key) = r.post.pathPrint (row.progressPath key) ∨
    key = .stdoutPath ∧ r.TailSettled row

/-- Who the dispatch is closed by: the status is readable and the owner proven gone, or a
terminal marker was read under the locks.  The marker comes with a recorded worker, unless
the last scan does not find it again. -/
def Authorized (row : LedgerRow) : Prop :=
  ((r.final.status row).isSome = true ∧ r.final.ControllerGone row) ∨
    ((r.final.terminalMarker row).isSome = true ∧
      ((r.post.terminalMarker row).isSome = true →
        r.final.workerPidPresent row = true ∨ r.post.workerPidPresent row = true))

/-- **What the evidence read under the locks says of a dispatch that is closed.** -/
structure ClosedOn (row : LedgerRow) : Prop where
  locked : r.queueLock = true ∧ r.ledgerLock = true ∧ r.fresh = some row
  ownerless : r.final.Ownerless row r.now r.stale
  authorized : r.Authorized row
  unchanged : r.first.fingerprint r.initial = r.final.fingerprint row
  unmoved : r.Unmoved row
  status : (r.post.status row).isSome = true ∨ (r.post.terminalMarker row).isSome = true

theorem unmoved_of_changed
    (h : changedProgressKeys (r.final.fingerprint row) (r.post.fingerprint row) = [] ∨
      r.TailSettled row) : r.Unmoved row := by
  intro key
  by_contra hmoved
  have hne : r.final.pathPrint (row.progressPath key) ≠ r.post.pathPrint (row.progressPath key) :=
    fun heq => hmoved (.inl heq)
  have hmem : key ∈ changedProgressKeys (r.final.fingerprint row) (r.post.fingerprint row) := by
    rw [World.changedProgressKeys_eq, List.mem_filter, decide_eq_true_eq]
    refine ⟨?_, hne⟩
    cases key <;> simp [ProgressKey.all]
  obtain hnone | hsettled := h
  · rw [hnone] at hmem
    cases hmem
  · rw [hsettled.1, List.mem_singleton] at hmem
    exact hmoved (.inr ⟨hmem, hsettled⟩)

theorem settle_eq_ok {c : Closure} (h : r.settle row = .ok c) :
    c.row = row ∧ r.Unmoved row ∧
      ((r.post.terminalMarker row).isSome = true → r.post.workerPidPresent row = true) ∧
      ((r.post.status row).isSome = true ∨ (r.post.terminalMarker row).isSome = true) := by
  unfold settle at h
  simp only [require_bind_eq_ok] at h
  obtain ⟨hworker, hstatus, h⟩ := h
  have hmarker : (r.post.terminalMarker row).isSome = true →
      r.post.workerPidPresent row = true := by
    intro hsome
    refine hworker.resolve_left ?_
    rw [Option.isNone_iff_eq_none]
    intro hnone
    rw [hnone] at hsome
    cases hsome
  split at h
  · rename_i hnone
    cases h
    exact ⟨rfl, r.unmoved_of_changed (.inl hnone), hmarker, hstatus⟩
  · obtain ⟨hsettled, h⟩ := require_bind_eq_ok.mp h
    cases h
    exact ⟨rfl, r.unmoved_of_changed (.inr hsettled), hmarker, hstatus⟩

end ReconcileRun

/-- A world in which every recorded process is gone. -/
def quietWorld (tail : Option FileStat) (marker : Option Marker) : World where
  host := { now := 2000, processIdentity := fun _ => .gone }
  hostname := "host"
  queue := .files []
  statusFiles := fun _ => .sidecar { dispatchId := "d1", workerPid := .int 7 }
  outputFile := fun _ => if tail.isNone then .absent else .readable
  fileStat := fun path => if path = "tail" then tail else none
  terminalMarker := fun _ => marker
  producersDead := fun _ => false
  leases := some []
  controller := fun _ _ => .answer "dead" none

/-- A row whose worker wrote no output so far. -/
def lateRow : LedgerRow where
  dispatchId := "d1"
  state := "running"
  transport := "dispatch"
  hostname := some "host"
  projectRoot := some "/p"
  controllerLabel := some "c"
  startedAt := .at 1000
  statusPath := .str "status"
  stdoutPath := .str "tail"
  workerPid := .int 7

/-- The tail of a worker that is gone, and the marker in it, reach the disk after the second
evaluation. -/
def lateTail : ReconcileRun where
  dryRun := false
  now := 2000
  stale := 300
  initial := lateRow
  first := quietWorld none none
  queueLock := true
  ledgerLock := true
  fresh := some lateRow
  final := quietWorld none none
  post := quietWorld (some ⟨2000, 40⟩) (some ⟨"COMPLETE", "complete", none⟩)
  stable := quietWorld (some ⟨2000, 40⟩) (some ⟨"COMPLETE", "complete", none⟩)

theorem lateTail_closes : ∃ c, lateTail.close = .ok c ∧ c.row = lateRow := by
  have hrow : (match lateTail.close with
      | .ok c => decide (c.row = lateRow)
      | .error _ => false) = true := by
    decide +kernel
  cases hclose : lateTail.close with
  | ok c =>
    rw [hclose] at hrow
    exact ⟨c, rfl, of_decide_eq_true hrow⟩
  | error reason =>
    rw [hclose] at hrow
    cases hrow

end GoalFlight.Dispatch
