import GoalFlight.Library.Checks
import GoalFlight.Dispatch.Carriers

/-!
# Dispatch: evidence about an abandoned dispatch

A running row of the ledger whose worker is gone is closed by the drain.  Five kinds of
evidence are read for it, and each may be undecided: the processes the documents record, the
leases, the controller that owns the dispatch, the output file, and the time of the last
progress.  For each kind this module has what the source makes of it and what the answer
stands for.
-/

namespace GoalFlight.Dispatch

open Json Checks GoalFlight.Capacity

variable {row : LedgerRow}

/-! ### The world -/

/-- What the output path reads as. -/
inductive OutputFile
  | absent
  | unreadable
  | notRegular
  | readable
deriving DecidableEq

/-- `path.stat()`: the modification time and the size. -/
structure FileStat where
  mtime : Seconds
  size : ℕ
deriving DecidableEq

/-- A terminal marker of the tail, with the outcome it stands for. -/
structure Marker where
  kind : String
  state : String
  reason : Option String := none

/-- An entry of the lease map. -/
inductive LeaseEntry
  | malformed
  | lease (leaseId dispatchId state : String)

/-- The live session a controller probe finds. -/
structure LiveSession where
  id : String
  label : String
  pid : Value
  conflictingBeacons : Bool

/-- `probe_live_session`. -/
inductive ControllerProbe
  | raised
  | answer (state : String) (live : Option LiveSession)

/-- What one evaluation of a dispatch finds. -/
structure World where
  host : Host
  hostname : String
  queue : QueueListing
  statusFiles : String → StatusFile
  outputFile : String → OutputFile
  fileStat : String → Option FileStat
  /-- The terminal marker in the row's tail that is bound to the dispatch. -/
  terminalMarker : LedgerRow → Option Marker
  /-- `enumerate_token_producers` finds every process of the launch dead or its pid
  reused. -/
  producersDead : LedgerRow → Bool
  /-- The lease map of `capacity.json`, by key. -/
  leases : Option (List (String × LeaseEntry))
  controller : String → Option String → ControllerProbe

variable {w : World}

/-! ### Processes -/

/-- Why the process evidence keeps the row. -/
inductive ProcessVeto
  | statusWorkerAliveIndeterminate
  | producerDescendantsInvalid
  | invalidPid (label : String)
  | notDead (label : String) (state : ClaimIdentity)
  | producerSet
  | statusWorkerAlive
  | unprovenPids

/-- What proves the processes inactive. -/
inductive ProcessBasis
  | noRecordedPid
  | provenGone
  | noGroupContract

/-- `value in {True, False, None}`. -/
def isBoolOrNull (v : Value) : Bool :=
  match v with
  | .null | .bool _ | .int 0 | .int 1 => true
  | _ => false

/-- A process the documents record: a label, the pid and the identity beside it. -/
abbrev RecordedProcess := String × Value × Value

/-- The processes of `producer_descendants`, when it is a list of objects. -/
def descendantProbes : Value → Option (List RecordedProcess)
  | .null => some []
  | .arr items =>
    if items.all Value.isDict then
      some (items.map fun d => ("producer_descendant", d.get "pid", d.get "identity"))
    else none
  | _ => none

/-- The processes the row and the status record, its descendants aside. -/
def ownProbes (row : LedgerRow) (status : StatusSidecar) : List RecordedProcess :=
  [("worker", row.workerPid, row.workerIdentity),
    ("status_worker", status.workerPid, status.identity),
    ("claimant", row.claimantPid, row.claimantIdentity)]

/-- One recorded process; the answer says whether one so far is measured. -/
def Host.probeProcess (h : Host) (measured : Bool) (process : RecordedProcess) :
    Except ProcessVeto Bool :=
  let (label, pidValue, identity) := process
  if pidValue.isAbsent then .ok measured
  else
    match pidValue with
    | .bool _ => .error (.invalidPid label)
    | _ =>
      if pidOf pidValue = none then .error (.invalidPid label)
      else
        match (h.queueClaimIdentityStatus pidValue identity).1 with
        | .dead => .ok true
        | state => .error (.notDead label state)

/-- One of `_PRODUCER_CONTRACT_FIELDS` is set. -/
def LedgerRow.hasProducerFields (r : LedgerRow) : Bool :=
  r.workerPgid.truthy || r.workerGroupLeaderIdentity.truthy || r.producerGroupContract ||
    r.producerGroupContractEnforced

/-- `_producer_set_contract_enumerable`. -/
def LedgerRow.producerSetContractEnumerable (r : LedgerRow) : Bool :=
  (given r.queueLaunchToken).isSome && r.producerGroupContract && r.producerGroupContractEnforced &&
    r.workerGroupLeaderIdentity.isDict && (pidOf r.workerPgid).isSome && (pidOf r.workerPid).isSome

/-- `_abandoned_process_evidence`. -/
def World.processEvidence (w : World) (row : LedgerRow) (status : StatusSidecar) :
    Except ProcessVeto ProcessBasis := do
  require (isBoolOrNull status.workerAlive = true) .statusWorkerAliveIndeterminate
  let descendants ←
    match descendantProbes row.producerDescendants with
    | none => .error .producerDescendantsInvalid
    | some probes => .ok probes
  let measured ← (ownProbes row status ++ descendants).foldlM w.host.probeProcess false
  if row.hasProducerFields then
    if row.producerSetContractEnumerable then
      if w.producersDead row then .ok .provenGone else .error .producerSet
    else if measured then .ok .noGroupContract
    else if status.workerAlive = .bool true then .error .statusWorkerAlive
    else .error .unprovenPids
  else if measured then .ok .provenGone
  else if status.workerAlive = .bool true then .error .statusWorkerAlive
  else .ok .noRecordedPid

/-- Every process the row and the status record. -/
def recordedProcesses (row : LedgerRow) (status : StatusSidecar) : List RecordedProcess :=
  ownProbes row status ++ (descendantProbes row.producerDescendants).getD []

/-- A process is not recorded, or it is proven gone. -/
def World.Inactive (w : World) (process : RecordedProcess) : Prop :=
  process.2.1.isAbsent = true ∨
    ∃ pid, pidOf process.2.1 = some pid ∧ w.host.ProvenGone pid process.2.2

theorem Host.probeProcess_eq_ok {h : Host} {measured : Bool} {process : RecordedProcess}
    {measured' : Bool} (hok : h.probeProcess measured process = .ok measured') :
    process.2.1.isAbsent = true ∨
      ∃ pid, pidOf process.2.1 = some pid ∧ h.ProvenGone pid process.2.2 := by
  obtain ⟨label, pidValue, identity⟩ := process
  unfold Host.probeProcess at hok
  dsimp only at hok ⊢
  split at hok
  · rename_i habsent
    exact .inl habsent
  · right
    split at hok
    · cases hok
    · split at hok
      · cases hok
      · split at hok
        · rename_i hdead
          exact h.provenGone_of_dead hdead
        · cases hok

/-- **Inactive processes.**  The process evidence is positive only if the list of
descendants reads and every recorded process is proven gone. -/
theorem World.inactive_of_processEvidence {status : StatusSidecar} {basis : ProcessBasis}
    (h : w.processEvidence row status = .ok basis) :
    (descendantProbes row.producerDescendants).isSome = true ∧
      ∀ process ∈ recordedProcesses row status, w.Inactive process := by
  unfold World.processEvidence at h
  rw [require_bind_eq_ok] at h
  obtain ⟨-, h⟩ := h
  cases hdescendants : descendantProbes row.producerDescendants with
  | none =>
    rw [hdescendants] at h
    cases h
  | some probes =>
    rw [hdescendants] at h
    obtain ⟨probes', hprobes, hrest⟩ := bind_eq_ok.mp h
    cases hprobes
    obtain ⟨measured, hfold, -⟩ := bind_eq_ok.mp hrest
    refine ⟨rfl, ?_⟩
    unfold recordedProcesses
    rw [hdescendants, Option.getD_some]
    exact forall_of_foldlM_ok (fun _ _ _ hok => w.host.probeProcess_eq_ok hok) hfold

/-! ### Leases -/

/-- The lease is recorded for the dispatch: by its key, its id or its dispatch. -/
def LedgerRow.ownsLease (r : LedgerRow) (key leaseId dispatchId : String) : Prop :=
  given r.leaseId = some key ∨ given r.remoteLeaseId = some key ∨
    given r.leaseId = some leaseId ∨ given r.remoteLeaseId = some leaseId ∨
    dispatchId = r.dispatchId

instance (r : LedgerRow) (key leaseId dispatchId : String) :
    Decidable (r.ownsLease key leaseId dispatchId) := by
  unfold LedgerRow.ownsLease
  infer_instance

/-- An entry of the lease map lets the row be closed. -/
def LedgerRow.leaseInactive (r : LedgerRow) (entry : String × LeaseEntry) : Bool :=
  match entry.2 with
  | .malformed => ¬ (given r.leaseId = some entry.1 ∨ given r.remoteLeaseId = some entry.1)
  | .lease leaseId dispatchId state =>
    ¬ r.ownsLease entry.1 leaseId dispatchId ∨ state ∈ terminalLeaseStates

/-- `_abandoned_lease_evidence`. -/
def World.leaseEvidence (w : World) (row : LedgerRow) : Bool :=
  w.leases.any fun leases => leases.all row.leaseInactive

/-- No lease of the dispatch is still held. -/
def World.LeasesOver (w : World) (row : LedgerRow) : Prop :=
  ∃ leases, w.leases = some leases ∧ ∀ key leaseId dispatchId state,
    (key, .lease leaseId dispatchId state) ∈ leases → row.ownsLease key leaseId dispatchId →
      state ∈ terminalLeaseStates

theorem World.leasesOver_of_leaseEvidence (h : w.leaseEvidence row = true) :
    w.LeasesOver row := by
  obtain ⟨leases, hleases, hall⟩ := Option.any_eq_true _ _ |>.mp h
  refine ⟨leases, hleases, ?_⟩
  intro key leaseId dispatchId state hmem howns
  have hentry := List.all_eq_true.mp hall _ hmem
  simp only [LedgerRow.leaseInactive, decide_eq_true_eq] at hentry
  exact hentry.resolve_left (not_not_intro howns)

/-! ### The controller -/

/-- Why the owner may still be there. -/
inductive ControllerVeto
  | controllerIdentityAbsent
  | controllerOwnerProjectIndeterminate
  | controllerBeaconError
  | controllerIndeterminate
  | controllerBeaconConflict
  | liveControllerLabelOwner
  | controllerLabelIdentityIndeterminate
  | controllerBeaconIdentityIndeterminate
  | liveControllerOwner

/-- What shows that the owner is gone. -/
inductive ControllerBasis
  | controllerBeaconAbsent
  | recordedControllerBeaconAbsent

/-- `_abandoned_controller_evidence`. -/
def World.controllerEvidence (w : World) (row : LedgerRow) :
    Except ControllerVeto ControllerBasis :=
  let label := given row.controllerLabel
  if label = none ∧ (given row.controllerSessionId = none ∨ row.controllerPid = .null) then
    .error .controllerIdentityAbsent
  else
    match given row.projectRoot with
    | none => .error .controllerOwnerProjectIndeterminate
    | some root =>
      match w.controller root label with
      | .raised => .error .controllerBeaconError
      | .answer state live =>
        if state = "unreadable" then .error .controllerIndeterminate
        else if state = "dead" then .ok .controllerBeaconAbsent
        else if state ≠ "live" then .error .controllerBeaconError
        else
          match live with
          | none => .error .controllerBeaconError
          | some session =>
            if session.conflictingBeacons then .error .controllerBeaconConflict
            else
              match label with
              | some label =>
                if session.label = label then .error .liveControllerLabelOwner
                else .error .controllerLabelIdentityIndeterminate
              | none =>
                match session.pid.int?, row.controllerPid.int? with
                | some livePid, some recordedPid =>
                  if given row.controllerSessionId = some session.id ∧
                      livePid = recordedPid then .error .liveControllerOwner
                  else .ok .recordedControllerBeaconAbsent
                | _, _ => .error .controllerBeaconIdentityIndeterminate

/-- The registry proves the owner gone: it answers that the controller is dead, or, for an
owner without a label, that the one live session has another id or another pid. -/
def World.ControllerGone (w : World) (row : LedgerRow) : Prop :=
  ∃ root, given row.projectRoot = some root ∧
    ((∃ live, w.controller root (given row.controllerLabel) = .answer "dead" live) ∨
      ∃ session livePid recordedPid, given row.controllerLabel = none ∧
        w.controller root none = .answer "live" (some session) ∧
        session.conflictingBeacons = false ∧
        session.pid.int? = some livePid ∧ row.controllerPid.int? = some recordedPid ∧
        ¬ (given row.controllerSessionId = some session.id ∧ livePid = recordedPid))

theorem World.controllerGone_of_controllerEvidence {basis : ControllerBasis}
    (h : w.controllerEvidence row = .ok basis) :
    w.ControllerGone row := by
  unfold World.controllerEvidence at h
  dsimp only at h
  split at h
  · cases h
  split at h
  · cases h
  rename_i root hroot
  refine ⟨root, hroot, ?_⟩
  split at h
  · cases h
  rename_i state live hprobe
  split at h
  · cases h
  split at h
  · rename_i hdead
    subst hdead
    exact .inl ⟨live, hprobe⟩
  split at h
  · cases h
  rename_i hlive
  right
  split at h
  · cases h
  rename_i session
  split at h
  · cases h
  rename_i hconflict
  split at h
  · split at h <;> cases h
  rename_i hlabel
  split at h
  · rename_i livePid recordedPid hlivePid hrecordedPid
    split at h
    · cases h
    · rename_i hother
      rw [hlabel, not_not.mp hlive] at hprobe
      exact ⟨session, livePid, recordedPid, hlabel, hprobe, Bool.eq_false_iff.mpr hconflict,
        hlivePid, hrecordedPid, hother⟩
  · cases h

/-! ### Output and progress -/

/-- `_abandoned_output_evidence`: the row names an output file, which is readable or not
there. -/
def World.outputEvidence (w : World) (row : LedgerRow) : Bool :=
  match row.stdoutPath with
  | .str path =>
    path ≠ "" && (w.outputFile path = .readable || w.outputFile path = .absent)
  | _ => false

/-- One entry of a progress fingerprint. -/
inductive PathPrint
  | noPath
  | noFile (path : String)
  | file (path : String) (stat : FileStat)
deriving DecidableEq

/-- The files whose changes count as progress. -/
inductive ProgressKey
  | stdoutPath
  | stderrPath
  | statusPath
deriving DecidableEq

/-- The path a row has under a key. -/
def LedgerRow.progressPath (r : LedgerRow) : ProgressKey → Value
  | .stdoutPath => r.stdoutPath
  | .stderrPath => r.stderrPath
  | .statusPath => r.statusPath

/-- The keys, in the order they are read. -/
def ProgressKey.all : List ProgressKey := [.stdoutPath, .stderrPath, .statusPath]

/-- The fingerprint of one file. -/
def World.pathPrint (w : World) (path : Value) : PathPrint :=
  match path with
  | .str path =>
    if path = "" then .noPath
    else
      match w.fileStat path with
      | none => .noFile path
      | some stat => .file path stat
  | _ => .noPath

/-- The modification time a fingerprint has. -/
def PathPrint.mtime? : PathPrint → Option Seconds
  | .file _ stat => some stat.mtime
  | _ => none

/-- `fingerprints` of `_abandoned_progress_snapshot`. -/
def World.fingerprint (w : World) (row : LedgerRow) : List PathPrint :=
  ProgressKey.all.map fun key => w.pathPrint (row.progressPath key)

/-- The times `_abandoned_progress_snapshot` measures. -/
def World.progressTimes (w : World) (row : LedgerRow) (status : StatusSidecar) : List Seconds :=
  [row.startedAt.seconds?, row.updatedAt.seconds?, status.updatedAt.seconds?].filterMap id ++
    (w.fingerprint row).filterMap PathPrint.mtime?

/-- The latest of them. -/
def World.latestProgress (w : World) (row : LedgerRow) (status : StatusSidecar) :
    Option Seconds :=
  (w.progressTimes row status).max?

/-- `_abandoned_changed_progress_keys`. -/
def changedProgressKeys (before after : List PathPrint) : List ProgressKey :=
  ((ProgressKey.all.zip (before.zip after)).filter fun entry => entry.2.1 ≠ entry.2.2).map Prod.fst

theorem World.changedProgressKeys_eq (w w' : World) (row : LedgerRow) :
    changedProgressKeys (w.fingerprint row) (w'.fingerprint row) =
      ProgressKey.all.filter fun key =>
        w.pathPrint (row.progressPath key) ≠ w'.pathPrint (row.progressPath key) := by
  unfold changedProgressKeys World.fingerprint
  generalize ProgressKey.all = keys
  induction keys with
  | nil => rfl
  | cons key keys ih =>
    simp only [List.map_cons, List.zip_cons_cons, List.filter_cons]
    split <;> simp_all

end GoalFlight.Dispatch
