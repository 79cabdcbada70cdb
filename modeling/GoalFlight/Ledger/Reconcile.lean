import GoalFlight.Ledger.Commit
import GoalFlight.Ledger.Liveness

/-!
# Ledger: the terminal reconciler

`reconcile_terminal_outbox` reads the attempts that missed their start deadline, those that
run, and every row of the ledger, gives the rows of running attempts the worker of the
journal, and then decides row by row.  A terminal status file, a missed deadline or a dead
process ends a row that is not terminal; a terminal row is committed again.

A pass is the list of its turns.  Other processes commit between two turns: a turn begins with
the journal that they leave.
-/

namespace GoalFlight.Ledger

open Json Json.Value GoalFlight.Dispatch Relational

variable {j : Journal} {a : DispatchAttempt}

/-! ### What a turn decides -/

/-- What the world answers a process at one moment. -/
structure World where
  host : Host
  /-- The status file at a path, where it reads as JSON. -/
  statusFile : String → Option Value
  draws : Draws
  /-- `utc_now`. -/
  clock : Stamp
  /-- `socket.gethostname`. -/
  hostname : String := ""

/-- What the world answers in one turn of a pass. -/
structure Moment extends World where
  /-- What the other processes commit before the turn. -/
  others : Journal → Journal

/-- `terminal_state_for`, of values. -/
def terminalStateOf (state reason : Value) : String :=
  match state with
  | .str s => Capacity.terminalStateFor s (textOf reason)
  | _ => "unknown"

/-- `sidecar.get("terminal_pending_state") or sidecar.get("state")`. -/
def sidecarState (status : Value) : Value :=
  (status.get "terminal_pending_state").orElse (status.get "state")

/-- `sidecar.get("reason") or sidecar.get("error")`. -/
def sidecarReason (status : Value) : Value := (status.get "reason").orElse (status.get "error")

/-- `_terminal_sidecar_observation`: the status file of the row, where it is terminal. -/
def terminalSidecarObservation (m : World) (r : LedgerRow) : Option Value :=
  match r.statusPath with
  | .str path =>
    if path = "" then none
    else
      (m.statusFile path).filter fun status =>
        status.isDict && status.get "dispatch_id" = .str r.dispatchId &&
          terminalStateOf (sidecarState status) (sidecarReason status) ∉ openTerminalKeys
  | _ => none

/-- The marker kinds that a commit repeats. -/
def repeatedMarkerKinds : List Value := [.str "USER-NEED", .str "USER-CONFIRM", .str "BLOCKED"]

/-- `str(marker.get("text") or "").strip() or None`. -/
def markerHeadline (marker : Value) : Option String :=
  (((textOf (marker.get "text")).map Capacity.strip).filter (· ≠ ""))

/-- What a terminal status file is committed as. -/
def sidecarEnding (status : Value) : Ending where
  state := (textOf (sidecarState status)).getD ""
  terminalState := terminalStateOf (sidecarState status) (sidecarReason status)
  reason :=
    let marker := status.get "terminal_marker"
    if marker.get "kind" ∈ repeatedMarkerKinds then
      .obj [("reason", sidecarReason status), ("marker_kind", marker.get "kind"),
        ("text", .str ((markerHeadline marker).getD ""))]
    else sidecarReason status
  workerStillAlive := .bool false
  headline := markerHeadline (status.get "terminal_marker")

/-- A missed start deadline. -/
def deadlineEnding (r : LedgerRow) : Ending where
  state := "abandoned"
  terminalState := "abandoned"
  reason := .obj [("reason", .str "start_claim_deadline_expired"), ("prior_state", .str r.state)]
  workerStillAlive := .bool false

/-- A process that is dead. -/
def deathEnding (r : LedgerRow) : Ending where
  state := "worker_dead"
  terminalState := "worker_dead"
  reason := .obj [("reason", .str "reconciler_observed_identity_dead"),
    ("prior_state", .str r.state)]
  workerStillAlive := .bool false

/-- A row that is terminal, as it is. -/
def rowEnding (r : LedgerRow) : Ending where
  state := if r.state = "" then r.terminalKey else r.state
  terminalState := r.terminalKey
  reason := r.cause
  workerStillAlive := .bool false

/-- What a turn decides about a row. -/
inductive Judgment
  | raised
  | skipped
  | held (liveness : Liveness) (reason : IdentityReason)
  | ends (ending : Ending)

/-- The classifications of a dead process. -/
def deadClassifications : List String := ["worker_dead", "stale_dead"]

/-- The decision of a turn; `expired` of a missed deadline, `final` of an attempt that has
ended. -/
def judge (m : World) (expired final : Bool) (r : LedgerRow) : Judgment :=
  match terminalSidecarObservation m r with
  | some status =>
    if r.terminalKey ∈ openTerminalKeys ∧ ¬ final then
      match workerIdentityLiveness m.host r with
      | none => .raised
      | some (.dead, _) => .ends (sidecarEnding status)
      | some (liveness, reason) => .held liveness reason
    else .ends (sidecarEnding status)
  | none =>
    if expired then .ends (deadlineEnding r)
    else if r.terminalKey ∈ openTerminalKeys then
      match classify m.host r with
      | none => .raised
      | some classification =>
        if classification ∈ deadClassifications then .ends (deathEnding r) else .skipped
    else .ends (rowEnding r)

/-! ### The rows of a pass -/

/-- What a pass is given. -/
structure Scope where
  canonicalRoot : String
  /-- `resolve_project_root_for_read`. -/
  rootOf : String → Option String
  /-- `reconcile_at`. -/
  reconcileAt : Timestamp
  commits : CommitEnv

/-- A pass, with the world of each of its turns. -/
structure Pass extends Scope where
  moment : ℕ → Moment

/-- **The ledger**: a file of `runs.d` is named by the dispatch, and only terminal rows are
archived. -/
structure LedgerFiles where
  runs : List LedgerRow
  archived : List LedgerRow
  keyed : (runs.map LedgerRow.dispatchId).Nodup
  settled : ∀ r ∈ archived, isTerminalState r.terminalKey = true

namespace Scope

/-- The row is one of the project. -/
def OfProject (p : Scope) (r : LedgerRow) : Prop :=
  (Capacity.given r.projectRoot).bind p.rootOf = some p.canonicalRoot

instance (p : Scope) (r : LedgerRow) : Decidable (p.OfProject r) :=
  inferInstanceAs (Decidable (_ = _))

/-- The attempts that missed their start deadline. -/
def expiredLaunches (p : Scope) (j : Journal) : List DispatchAttempt :=
  j.attempts.rows.filter fun a => TerminalRequest.Expired a p.reconcileAt

end Scope

/-- The worker of a running attempt: an object that has a pid. -/
def workerInstance (a : DispatchAttempt) : Option Value :=
  if a.lifecycle = .live .running then
    (a.workerInstance.bind fun text => loads text.toList).filter fun worker =>
      worker.isDict && (worker.get "pid").truthy
  else none

/-- The worker of the running attempt of a dispatch. -/
def runningWorker (j : Journal) (dispatchId : String) : Option Value :=
  (j.attemptForDispatch dispatchId).bind workerInstance

/-- The row that stands for an attempt without one. -/
def syntheticRow (p : Scope) (dispatchId state : String) : LedgerRow :=
  { dispatchId := dispatchId, projectRoot := some p.canonicalRoot, state := state }

/-- `str(row["lifecycle_state"]).lower()`, of a live attempt. -/
def loweredState : Lifecycle → String
  | .live .prepared => "prepared"
  | .live .starting => "starting"
  | .live .running => "running"
  | .final t => if t.state = .abandoned then "abandoned" else "terminal"

/-- The rows with one for each missed deadline of a dispatch that has none. -/
def withExpired (p : Scope) (rows : List LedgerRow) (expired : List DispatchAttempt) :
    List LedgerRow :=
  rows ++ (expired.filter fun a => ∀ r ∈ rows, r.dispatchId ≠ a.dispatchId ∨ r.dispatchId = "").map
    fun a => syntheticRow p a.dispatchId (loweredState a.lifecycle)

/-- A row with the worker of the running attempt, in this state. -/
def withWorker (worker : Value) (state : String) (r : LedgerRow) : LedgerRow :=
  { r with
    workerPid := worker.get "pid"
    workerIdentity := worker
    workerPgid := worker.get "pgid"
    state := state }

/-- A row takes the worker of the running attempt, if it has none. -/
def hydrateRow (worker : Value) (r : LedgerRow) : LedgerRow :=
  if r.workerPid.truthy then r
  else withWorker worker (if r.terminalKey ∈ openTerminalKeys then "running" else r.state) r

/-- The first row of the dispatch takes the worker, or a row that is made for it. -/
def hydrate (p : Scope) (dispatchId : String) (worker : Value) : List LedgerRow → List LedgerRow
  | [] => [hydrateRow worker (syntheticRow p dispatchId "running")]
  | r :: rest =>
    if r.dispatchId = dispatchId ∧ p.OfProject r then hydrateRow worker r :: rest
    else r :: hydrate p dispatchId worker rest

/-- The rows with the workers of the running attempts. -/
def withWorkers (p : Scope) (attempts : List DispatchAttempt) (rows : List LedgerRow) :
    List LedgerRow :=
  attempts.foldl (fun rows a =>
    match workerInstance a with
    | none => rows
    | some worker => hydrate p a.dispatchId worker rows) rows

/-- The rows of a pass. -/
def Scope.rows (p : Scope) (files : LedgerFiles) (j : Journal) : List LedgerRow :=
  withWorkers p j.attempts.rows
    (withExpired p (files.runs ++ files.archived) (p.expiredLaunches j))

/-! ### Turns -/

/-- One turn of a pass. -/
structure Turn where
  row : LedgerRow
  moment : Moment
  /-- The missed deadline of the dispatch, as the pass has read it. -/
  launch : Option DispatchAttempt
  /-- The journal at the turn. -/
  journal : Journal

namespace Turn

/-- The attempt of the dispatch has ended. -/
def attemptFinal (t : Turn) : Bool :=
  (t.journal.attemptForDispatch t.row.dispatchId).any fun a => a.lifecycle.terminal?.isSome

def judgment (t : Turn) : Judgment := judge t.moment.toWorld t.launch.isSome t.attemptFinal t.row

/-- The commit of the turn, if it makes one, and the journal that it leaves. -/
def commit (p : Scope) (t : Turn) : Option (Except Abort TerminalCommit) × Journal :=
  match t.judgment with
  | .ends e =>
    let (answer, j) :=
      match t.launch with
      | some a => runTx t.journal (t.journal.commitTerminal (.expired a.attemptId p.reconcileAt
          e.terminalState (p.commits.render { e with headline := none }.observation)
          t.moment.draws.transitionId t.moment.draws.event t.moment.draws.now))
      | none => commitTerminalAuthority p.commits t.moment.draws t.journal t.row e
    (some answer, j)
  | _ => (none, t.journal)

end Turn

/-- The turn of a row. -/
def Pass.turn (p : Pass) (launches : List DispatchAttempt) (i : ℕ) (j : Journal) (r : LedgerRow) :
    Turn where
  row := r
  moment := p.moment i
  launch := launches.find? fun a => a.dispatchId = r.dispatchId
  journal := (p.moment i).others j

/-- The turns of a pass; one that raises is its last. -/
def Pass.turns (p : Pass) (launches : List DispatchAttempt) : ℕ → Journal → List LedgerRow →
    List Turn
  | _, _, [] => []
  | i, j, r :: rest =>
    if r.dispatchId ≠ "" ∧ p.OfProject r then
      let t := p.turn launches i j r
      match t.judgment with
      | .raised => [t]
      | _ => t :: p.turns launches (i + 1) (t.commit p.toScope).2 rest
    else p.turns launches i j rest

/-- `reconcile_terminal_outbox`: its turns. -/
def Pass.reconcileTerminalOutbox (p : Pass) (files : LedgerFiles) (j : Journal) : List Turn :=
  p.turns (p.expiredLaunches j) 0 j (p.rows files j)

theorem Pass.exists_of_mem_turns {p : Pass} {launches : List DispatchAttempt} {t : Turn}
    {i : ℕ} {rows : List LedgerRow} (ht : t ∈ p.turns launches i j rows) :
    t.row ∈ rows ∧ t.row.dispatchId ≠ "" ∧ p.OfProject t.row := by
  induction rows generalizing i j with
  | nil => cases ht
  | cons r rest ih =>
    unfold Pass.turns at ht
    split at ht
    · rename_i hscope
      have hhead : t = p.turn launches i j r →
          t.row ∈ r :: rest ∧ t.row.dispatchId ≠ "" ∧ p.OfProject t.row := by
        rintro rfl
        exact ⟨List.mem_cons_self, hscope⟩
      simp only at ht
      split at ht
      · exact hhead (List.mem_singleton.mp ht)
      · rcases List.mem_cons.mp ht with heq | hrest
        · exact hhead heq
        · exact (ih hrest).imp_left (List.mem_cons_of_mem r)
    · exact (ih ht).imp_left (List.mem_cons_of_mem r)

/-! ### The row of a turn has its worker -/

variable {p : Scope} {rows : List LedgerRow} {r s : LedgerRow} {worker : Value}
  {dispatchId : String}

/-- A row of the project that is not terminal. -/
structure Scope.Open (p : Scope) (r : LedgerRow) : Prop where
  named : r.dispatchId ≠ ""
  ofProject : p.OfProject r
  key : r.terminalKey ∈ openTerminalKeys

/-- A row that is not terminal comes before the other rows of its dispatch. -/
def Scope.OpenFirst (p : Scope) (rows : List LedgerRow) : Prop :=
  rows.Pairwise fun r s => p.OfProject r → p.Open s → r.dispatchId ≠ s.dispatchId

theorem notMem_openTerminalKeys_of_isTerminalState {key : String}
    (h : isTerminalState key = true) : key ∉ openTerminalKeys := by
  intro hkey
  have hnone : ∀ key ∈ openTerminalKeys, isTerminalState key = false := by decide
  rw [hnone key hkey] at h
  cases h

theorem openFirst_files (p : Scope) (files : LedgerFiles) :
    p.OpenFirst (files.runs ++ files.archived) := by
  unfold Scope.OpenFirst
  refine List.pairwise_append.mpr ⟨?_, ?_, ?_⟩
  · exact (List.pairwise_map.mp files.keyed).imp fun hne _ _ => hne
  · refine List.pairwise_of_forall_mem_list fun r _ s hs _ hopen => ?_
    exact absurd hopen.key (notMem_openTerminalKeys_of_isTerminalState (files.settled s hs))
  · intro r _ s hs _ hopen
    exact absurd hopen.key (notMem_openTerminalKeys_of_isTerminalState (files.settled s hs))

theorem openFirst_withExpired {attempts : List DispatchAttempt}
    (hattempts : attempts.Pairwise fun a b => a.dispatchId ≠ b.dispatchId)
    (h : p.OpenFirst rows) :
    p.OpenFirst (withExpired p rows attempts) := by
  unfold Scope.OpenFirst withExpired
  refine List.pairwise_append.mpr ⟨h, ?_, ?_⟩
  · refine List.pairwise_map.mpr ((hattempts.sublist List.filter_sublist).imp ?_)
    exact fun hne _ _ => hne
  · intro r hr s hs _ hopen
    obtain ⟨a, ha, rfl⟩ := List.mem_map.mp hs
    rcases of_decide_eq_true (List.mem_filter.mp ha).2 r hr with hne | hempty
    · exact hne
    · rw [hempty]
      exact hopen.named.symm

theorem dispatchId_hydrateRow (worker : Value) (r : LedgerRow) :
    (hydrateRow worker r).dispatchId = r.dispatchId := by
  unfold hydrateRow
  split <;> rfl

theorem ofProject_hydrateRow : p.OfProject (hydrateRow worker r) ↔ p.OfProject r := by
  unfold hydrateRow
  split <;> exact Iff.rfl

theorem workerPid_hydrateRow (hworker : (worker.get "pid").truthy = true) :
    (hydrateRow worker r).workerPid.truthy = true := by
  unfold hydrateRow
  split
  · assumption
  · exact hworker

theorem mem_or_of_mem_hydrate (h : s ∈ hydrate p dispatchId worker rows) :
    s ∈ rows ∨ s.dispatchId = dispatchId := by
  induction rows with
  | nil =>
    obtain rfl := List.mem_singleton.mp h
    exact .inr (dispatchId_hydrateRow _ _)
  | cons r rest ih =>
    unfold hydrate at h
    split at h
    · rename_i hfound
      rcases List.mem_cons.mp h with rfl | hrest
      · exact .inr ((dispatchId_hydrateRow _ _).trans hfound.1)
      · exact .inl (List.mem_cons_of_mem r hrest)
    · rcases List.mem_cons.mp h with rfl | hrest
      · exact .inl List.mem_cons_self
      · exact (ih hrest).imp_left (List.mem_cons_of_mem r)

theorem openFirst_hydrate (h : p.OpenFirst rows) :
    p.OpenFirst (hydrate p dispatchId worker rows) := by
  induction rows with
  | nil => exact List.pairwise_singleton _ _
  | cons r rest ih =>
    obtain ⟨hhead, htail⟩ := List.pairwise_cons.mp h
    unfold hydrate
    split
    · refine List.pairwise_cons.mpr ⟨fun s hs hproject hopen => ?_, htail⟩
      rw [dispatchId_hydrateRow]
      exact hhead s hs (ofProject_hydrateRow.mp hproject) hopen
    · rename_i hnot
      refine List.pairwise_cons.mpr ⟨fun s hs hproject hopen => ?_, ih htail⟩
      rcases mem_or_of_mem_hydrate hs with hmem | heq
      · exact hhead s hmem hproject hopen
      · rw [heq]
        exact fun hid => hnot ⟨hid, hproject⟩

theorem workerPid_of_mem_hydrate (hfirst : p.OpenFirst rows)
    (hworker : (worker.get "pid").truthy = true) (h : s ∈ hydrate p dispatchId worker rows)
    (hid : s.dispatchId = dispatchId) (hopen : p.Open s) : s.workerPid.truthy = true := by
  induction rows with
  | nil =>
    obtain rfl := List.mem_singleton.mp h
    exact workerPid_hydrateRow hworker
  | cons r rest ih =>
    obtain ⟨hhead, htail⟩ := List.pairwise_cons.mp hfirst
    unfold hydrate at h
    split at h
    · rename_i hfound
      rcases List.mem_cons.mp h with rfl | hrest
      · exact workerPid_hydrateRow hworker
      · exact absurd (hfound.1.trans hid.symm) (hhead s hrest hfound.2 hopen)
    · rename_i hnot
      rcases List.mem_cons.mp h with rfl | hrest
      · exact absurd ⟨hid, hopen.ofProject⟩ hnot
      · exact ih htail hrest

/-- The open rows of a dispatch have a worker. -/
def Scope.Staffed (p : Scope) (dispatchId : String) (rows : List LedgerRow) : Prop :=
  ∀ s ∈ rows, s.dispatchId = dispatchId → p.Open s → s.workerPid.truthy = true

theorem staffed_hydrate {id : String} (hfirst : p.OpenFirst rows)
    (hworker : (worker.get "pid").truthy = true) (h : p.Staffed id rows) :
    p.Staffed id (hydrate p dispatchId worker rows) := by
  intro s hs hid hopen
  rcases mem_or_of_mem_hydrate hs with hmem | heq
  · exact h s hmem hid hopen
  · exact workerPid_of_mem_hydrate hfirst hworker hs heq hopen

theorem workerInstance_pid (h : workerInstance a = some worker) :
    (worker.get "pid").truthy = true := by
  unfold workerInstance at h
  split at h
  · have hboth := (Option.filter_eq_some_iff.mp h).2
    rw [Bool.and_eq_true] at hboth
    exact hboth.2
  · cases h

theorem withWorkers_cons_none {rest : List DispatchAttempt} (h : workerInstance a = none) :
    withWorkers p (a :: rest) rows = withWorkers p rest rows := by
  unfold withWorkers
  rw [List.foldl_cons, h]

theorem withWorkers_cons_some {rest : List DispatchAttempt}
    (h : workerInstance a = some worker) :
    withWorkers p (a :: rest) rows = withWorkers p rest (hydrate p a.dispatchId worker rows) := by
  unfold withWorkers
  rw [List.foldl_cons, h]

theorem withWorkers_spec {attempts : List DispatchAttempt} (hfirst : p.OpenFirst rows) :
    (∀ id, p.Staffed id rows → p.Staffed id (withWorkers p attempts rows)) ∧
      ∀ a ∈ attempts, ∀ worker, workerInstance a = some worker →
        p.Staffed a.dispatchId (withWorkers p attempts rows) := by
  induction attempts generalizing rows with
  | nil => exact ⟨fun id h => h, nofun⟩
  | cons a rest ih =>
    cases hinstance : workerInstance a with
    | none =>
      rw [withWorkers_cons_none hinstance]
      obtain ⟨hkeep, hstaff⟩ := ih hfirst
      refine ⟨hkeep, fun b hb worker hworker => ?_⟩
      rcases List.mem_cons.mp hb with rfl | hrest
      · rw [hinstance] at hworker
        cases hworker
      · exact hstaff b hrest worker hworker
    | some worker =>
      rw [withWorkers_cons_some hinstance]
      have hpid := workerInstance_pid hinstance
      have hnext : p.OpenFirst (hydrate p a.dispatchId worker rows) := openFirst_hydrate hfirst
      obtain ⟨hkeep, hstaff⟩ := ih hnext
      refine ⟨fun id h => hkeep id (staffed_hydrate hfirst hpid h), fun b hb other hother => ?_⟩
      rcases List.mem_cons.mp hb with rfl | hrest
      · exact hkeep b.dispatchId fun s hs hid hopen =>
          workerPid_of_mem_hydrate hfirst hpid hs hid hopen
      · exact hstaff b hrest other hother

theorem runningWorker_eq_some (h : runningWorker j dispatchId = some worker) :
    ∃ a ∈ j.attempts.rows, a.dispatchId = dispatchId ∧ workerInstance a = some worker := by
  obtain ⟨a, hfound, hinstance⟩ := Option.bind_eq_some_iff.mp h
  obtain ⟨hmem, hid⟩ := attemptForDispatch_eq_some hfound
  exact ⟨a, hmem, hid, hinstance⟩

/-- **The open row of a running attempt has its worker** when its turn comes. -/
theorem workerPid_of_running {p : Pass} {files : LedgerFiles} {t : Turn}
    (ht : t ∈ p.reconcileTerminalOutbox files j)
    (hkey : t.row.terminalKey ∈ openTerminalKeys) :
    runningWorker j t.row.dispatchId = none ∨ t.row.workerPid.truthy = true := by
  obtain ⟨hmem, hnamed, hproject⟩ := Pass.exists_of_mem_turns ht
  have hdistinct : (p.expiredLaunches j).Pairwise fun a b => a.dispatchId ≠ b.dispatchId :=
    (j.attempts.pairwise.imp fun hcompat => hcompat.dispatch).sublist List.filter_sublist
  have hfirst := openFirst_withExpired hdistinct (openFirst_files p.toScope files)
  cases hrunning : runningWorker j t.row.dispatchId with
  | none => exact .inl rfl
  | some worker =>
    obtain ⟨a, ha, hid, hinstance⟩ := runningWorker_eq_some hrunning
    refine .inr ?_
    exact (withWorkers_spec hfirst).2 a ha worker hinstance t.row hmem hid.symm
      ⟨hnamed, hproject, hkey⟩

end GoalFlight.Ledger
