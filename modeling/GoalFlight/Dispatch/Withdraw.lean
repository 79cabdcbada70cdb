import GoalFlight.Journal.Attempt
import GoalFlight.Library.Checks
import GoalFlight.Dispatch.Carriers

/-!
# Dispatch: withdrawing a dispatch

`withdraw` retires a dispatch that has no live worker.  `_withdraw_preflight` gathers the
ledger row, the journal attempt, the queue carriers and the status files, and
`_withdraw_liveness_preflight` checks what they say about the dispatch's processes; the
preflight is repeated under the queue and the ledger lock before the journal attempt is made
final.

* `livenessPreflight_eq_ok` says exactly which evidence is let through.
* `WithdrawEvidence.ProvesDead` is what the evidence has to say before a started attempt may
  be retired.
* `WithdrawEvidence.Bypassed` is the one way around it: a stale spawn intent in any single
  document takes the place of every agreement between the documents.
-/

namespace GoalFlight.Dispatch

open Json Checks GoalFlight.Journal

/-- `QUEUE_CLAIM_STALE_S`. -/
def queueClaimStale : Seconds := 300

/-! ### The checks of the liveness preflight -/

/-- The refusals, one for each `raise` of the preflight. -/
inductive WithdrawRefusal
  | reasonBlank
  | supersededByInvalid
  | ledgerUnreadable
  | launchOwnership (kind : CarrierKind)
  | carrierUnreadable
  | rootUnresolvable
  | noAttempt
  | callerAmbiguous
  | notOwner
  | journalUnreadable
  | identityWithoutPid (source : String)
  | noStartIdentity (source : String) (pid : Value)
  | workerNotDead (source : String) (pid : Value) (state : ClaimIdentity) (reason : IdentityReason)
  | statusIndeterminate (evidence : StatusEvidence)
  | statusLive
  | statusWithoutIdentity
  | spawnIntentFresh
  | noDeadStatus
  | noDeadLedgerIdentity
  | noDeadJournalIdentity
  | identitiesDoNotMatch
  | supersededUnproven

/-- `identity in (None, {})`. -/
def isEmptyIdentity (identity : Value) : Bool := identity = .null || identity = .obj []

/-- `check` of the liveness preflight: a recorded process has a start token and is dead.
The answer says whether a process is recorded. -/
def Host.check (h : Host) (source : String) (pid identity : Value) :
    Except WithdrawRefusal Bool :=
  if pid.isAbsent then
    if isEmptyIdentity identity then .ok false else .error (.identityWithoutPid source)
  else if ¬ hasStartToken identity then .error (.noStartIdentity source pid)
  else
    match h.queueClaimIdentityStatus pid identity with
    | (.dead, _) => .ok true
    | (state, reason) => .error (.workerNotDead source pid state reason)

/-- A process in a carrier: the worker, the claimer and the launcher. -/
def Host.checkCarrier (h : Host) (carrier : String × QueueEntry) :
    Except WithdrawRefusal PUnit := do
  let _ ← h.check carrier.1 carrier.2.queueWorkerPid carrier.2.queueWorkerIdentity
  let _ ← h.check (carrier.1 ++ " claimer") carrier.2.queueClaimerPid
    carrier.2.queueClaimerIdentity
  let _ ← h.check (carrier.1 ++ " launcher") carrier.2.queueLauncherPid
    carrier.2.queueLauncherIdentity
  pure ⟨⟩

/-- What a document says about a worker that may be on its way. -/
structure SpawnEvidence where
  queueWorkerPid : Value
  workerPid : Value
  intent : Bool
  intentAt : Stamp

def LedgerRow.spawnEvidence (r : LedgerRow) : SpawnEvidence :=
  ⟨r.queueWorkerPid, r.workerPid, r.queueWorkerSpawnIntent, r.queueWorkerSpawnIntentAt⟩

def QueueEntry.spawnEvidence (e : QueueEntry) : SpawnEvidence :=
  ⟨e.queueWorkerPid, e.workerPid, e.queueWorkerSpawnIntent, e.queueWorkerSpawnIntentAt⟩

/-- `_queue_claim_worker_spawn_intent`. -/
def SpawnEvidence.hasIntent (s : SpawnEvidence) : Bool := s.intent || s.intentAt.given

/-- The document has a spawn intent, and neither it nor the journal has a worker pid. -/
def SpawnEvidence.unlaunched (s : SpawnEvidence) (worker : Value) : Bool :=
  s.hasIntent && !(s.queueWorkerPid.truthy || s.workerPid.truthy || (worker.get "pid").truthy)

/-- The spawn intent is older than the claim-stale window. -/
def Host.intentStale (h : Host) (s : SpawnEvidence) : Bool :=
  s.intentAt.seconds?.any fun at_ => queueClaimStale < h.now - at_

/-- The status names a worker. -/
def StatusSidecar.namesWorker (s : StatusSidecar) : Bool :=
  !s.workerPid.isAbsent || !isEmptyIdentity s.identity

/-- `is_terminal_state(status.get("terminal_pending_state") or status.get("state"))`. -/
def StatusSidecar.saysTerminal (s : StatusSidecar) : Bool :=
  (textOf (s.terminalPendingState.orElse s.state)).any isTerminalState

/-- The evidence of one preflight. -/
structure WithdrawEvidence where
  host : Host
  dispatchId : String
  lifecycle : AttemptState
  record : Option LedgerRow
  worker : Value
  carriers : List (String × QueueEntry)
  statusFiles : String → StatusFile

namespace WithdrawEvidence

variable (e : WithdrawEvidence)

def ledgerPid : Value := (e.record.map LedgerRow.workerPid).getD .null

def ledgerIdentity : Value := (e.record.map LedgerRow.workerIdentity).getD .null

def journalPid : Value := e.worker.get "pid"

/-- The paths of the status files: the row's and the carriers', each once. -/
def statusPaths : List Value :=
  (((e.record.map LedgerRow.statusPath).toList ++ e.carriers.map fun c => c.2.statusPath).filter
    fun path => ¬ path.isAbsent).dedup

/-- The row and the carriers, as evidence of a spawn. -/
def spawnEvidence : List SpawnEvidence :=
  (e.record.map LedgerRow.spawnEvidence).toList ++ e.carriers.map fun c => c.2.spawnEvidence

/-- The attempt is `STARTING` or `RUNNING`. -/
def Active : Prop := e.lifecycle = .live .starting ∨ e.lifecycle = .live .running

instance : Decidable e.Active := inferInstanceAs (Decidable (_ ∨ _))

/-- The status at a path. -/
def status (path : Value) : Except StatusEvidence StatusSidecar :=
  abandonedStatusPayload e.statusFiles e.dispatchId path

/-- One status file; the answer says whether a status so far shows the worker dead. -/
def checkStatus (dead : Bool) (path : Value) : Except WithdrawRefusal Bool :=
  match e.status path with
  | .error evidence => .error (.statusIndeterminate evidence)
  | .ok s =>
    if s.namesWorker then e.host.check "status" s.workerPid s.identity
    else if s.workerAlive = .bool true then .error .statusLive
    else if s.workerAlive = .bool false then .ok true
    else if s.saysTerminal then .ok dead
    else .error .statusWithoutIdentity

/-- One document's spawn intent; the answer says whether one so far is stale. -/
def checkSpawnIntent (stale : Bool) (s : SpawnEvidence) : Except WithdrawRefusal Bool :=
  if s.unlaunched e.worker then
    if e.host.intentStale s then .ok true else .error .spawnIntentFresh
  else .ok stale

/-- `identities_match`: the row and the journal have the same pid and start token. -/
def identitiesMatch : Bool :=
  (e.ledgerPid.int?.any fun pid => e.journalPid.int? = some pid) && e.ledgerIdentity.isDict &&
    e.ledgerIdentity.get "start_token" = e.worker.get "start_token"

/-- `_withdraw_liveness_preflight`. -/
def livenessPreflight : Except WithdrawRefusal PUnit := do
  let ledgerDead ← e.host.check "ledger" e.ledgerPid e.ledgerIdentity
  let journalDead ← e.host.check "journal" e.journalPid e.worker
  forM e.carriers e.host.checkCarrier
  let statusDead ← e.statusPaths.foldlM e.checkStatus e.statusPaths.isEmpty
  let staleSpawnIntent ← e.spawnEvidence.foldlM e.checkSpawnIntent false
  if e.Active ∧ staleSpawnIntent = false then do
    require (statusDead = true) .noDeadStatus
    require (ledgerDead = true) .noDeadLedgerIdentity
    require (journalDead = true) .noDeadJournalIdentity
    require (e.identitiesMatch = true) .identitiesDoNotMatch
  else pure ⟨⟩

end WithdrawEvidence

/-! ### What the checks let through -/

/-- The evidence about one process passes: it is recorded with a start token and dead, or
not recorded at all. -/
def Host.Passes (h : Host) (pid identity : Value) : Prop :=
  if pid.isAbsent then isEmptyIdentity identity = true
  else hasStartToken identity = true ∧ (h.queueClaimIdentityStatus pid identity).1 = .dead

theorem Host.check_eq_ok {h : Host} {source : String} {pid identity : Value} {recorded : Bool} :
    h.check source pid identity = .ok recorded ↔
      h.Passes pid identity ∧ recorded = !pid.isAbsent := by
  unfold Host.check Host.Passes
  cases habsent : pid.isAbsent with
  | true =>
    cases hempty : isEmptyIdentity identity with
    | true => simp [eq_comm (b := recorded)]
    | false => simp
  | false =>
    cases htoken : hasStartToken identity with
    | false => simp
    | true =>
      rcases hstatus : h.queueClaimIdentityStatus pid identity with ⟨state, reason⟩
      cases state with
      | dead => simp [eq_comm (b := recorded)]
      | live | indeterminate | noPid => simp

theorem Host.checkCarrier_eq_ok {h : Host} {carrier : String × QueueEntry} :
    h.checkCarrier carrier = .ok ⟨⟩ ↔
      h.Passes carrier.2.queueWorkerPid carrier.2.queueWorkerIdentity ∧
      h.Passes carrier.2.queueClaimerPid carrier.2.queueClaimerIdentity ∧
      h.Passes carrier.2.queueLauncherPid carrier.2.queueLauncherIdentity := by
  unfold Host.checkCarrier
  simp [bind_eq_ok, Host.check_eq_ok, pure, Except.pure]

namespace WithdrawEvidence

variable {e : WithdrawEvidence}

/-- The status at a path is let through. -/
def StatusPasses (e : WithdrawEvidence) (path : Value) : Prop :=
  ∃ s, e.status path = .ok s ∧
    if s.namesWorker then s.workerPid.isAbsent = false ∧ e.host.Passes s.workerPid s.identity
    else s.workerAlive ≠ .bool true ∧ (s.workerAlive = .bool false ∨ s.saysTerminal = true)

/-- The status at a path shows the worker dead: it names one, or says that it is not
alive. -/
def showsDead (e : WithdrawEvidence) (path : Value) : Bool :=
  match e.status path with
  | .ok s => s.namesWorker || s.workerAlive = .bool false
  | .error _ => false

theorem checkStatus_eq_ok {dead : Bool} {path : Value} {dead' : Bool} :
    e.checkStatus dead path = .ok dead' ↔
      e.StatusPasses path ∧ dead' = (dead || e.showsDead path) := by
  unfold checkStatus StatusPasses showsDead
  cases hstatus : e.status path with
  | error evidence => simp
  | ok s =>
    dsimp only
    split
    · rename_i hnames
      rw [Host.check_eq_ok]
      cases habsent : s.workerPid.isAbsent with
      | false => simp [hnames, habsent]
      | true =>
        -- an identity without a pid is refused
        have hidentity : isEmptyIdentity s.identity = false := by
          simpa [StatusSidecar.namesWorker, habsent] using hnames
        simp [Host.Passes, hnames, habsent, hidentity]
    · rename_i hnames
      split
      · rename_i halive
        simp [hnames, halive]
      · rename_i hnotalive
        split
        · rename_i hdead
          simp [hnames, hdead, eq_comm (b := dead')]
        · rename_i hnotdead
          split
          · rename_i hterminal
            simp [hnames, hnotalive, hnotdead, hterminal, eq_comm (b := dead')]
          · rename_i hterminal
            simp [hnames, hnotalive, hnotdead, hterminal]

theorem checkSpawnIntent_eq_ok {stale : Bool} {s : SpawnEvidence} {stale' : Bool} :
    e.checkSpawnIntent stale s = .ok stale' ↔
      (s.unlaunched e.worker = true → e.host.intentStale s = true) ∧
        stale' = (stale || s.unlaunched e.worker) := by
  unfold checkSpawnIntent
  split
  · rename_i hunlaunched
    cases hstale : e.host.intentStale s with
    | true => simp [hunlaunched, eq_comm (b := stale')]
    | false => simp [hunlaunched]
  · rename_i hlaunched
    simp [hlaunched, eq_comm (b := stale')]

/-- No check refuses what a document says for itself. -/
structure Unrefuted (e : WithdrawEvidence) : Prop where
  ledger : e.host.Passes e.ledgerPid e.ledgerIdentity
  journal : e.host.Passes e.journalPid e.worker
  carriers : ∀ c ∈ e.carriers,
    e.host.Passes c.2.queueWorkerPid c.2.queueWorkerIdentity ∧
    e.host.Passes c.2.queueClaimerPid c.2.queueClaimerIdentity ∧
    e.host.Passes c.2.queueLauncherPid c.2.queueLauncherIdentity
  statuses : ∀ path ∈ e.statusPaths, e.StatusPasses path
  intents : ∀ s ∈ e.spawnEvidence, s.unlaunched e.worker = true → e.host.intentStale s = true

/-- Some document has a spawn intent, and neither it nor the journal a worker. -/
def Bypassed (e : WithdrawEvidence) : Prop :=
  ∃ s ∈ e.spawnEvidence, s.unlaunched e.worker = true

/-- The row and the journal name the same worker, and no status file is named or one of
them shows it dead. -/
structure Agrees (e : WithdrawEvidence) : Prop where
  status : e.statusPaths = [] ∨ ∃ path ∈ e.statusPaths, e.showsDead path = true
  ledger : e.ledgerPid.isAbsent = false
  journal : e.journalPid.isAbsent = false
  same : e.identitiesMatch = true

theorem isEmpty_or_any_iff {dead : Value → Bool} {paths : List Value} :
    (paths.isEmpty || paths.any dead) = true ↔ paths = [] ∨ ∃ path ∈ paths, dead path = true := by
  rw [Bool.or_eq_true, List.isEmpty_iff, List.any_eq_true]

/-- **What the liveness preflight lets through**, for an attempt that was started. -/
theorem livenessPreflight_eq_ok (hactive : e.Active) :
    e.livenessPreflight = .ok ⟨⟩ ↔ e.Unrefuted ∧ (e.Bypassed ∨ e.Agrees) := by
  have hstatus : ∀ dead', e.statusPaths.foldlM e.checkStatus e.statusPaths.isEmpty = .ok dead' ↔
      (∀ path ∈ e.statusPaths, e.StatusPasses path) ∧
        dead' = (e.statusPaths.isEmpty || e.statusPaths.any e.showsDead) := by
    have hcheck : ∀ b path b', e.checkStatus b path = .ok b' ↔
        e.StatusPasses path ∧ b' = (b || e.showsDead path) := fun _ _ _ => checkStatus_eq_ok
    exact fun _ => foldlM_eq_ok hcheck
  have hintent : ∀ stale', e.spawnEvidence.foldlM e.checkSpawnIntent false = .ok stale' ↔
      (∀ s ∈ e.spawnEvidence, s.unlaunched e.worker = true → e.host.intentStale s = true) ∧
        stale' = (false || e.spawnEvidence.any fun s => s.unlaunched e.worker) := by
    have hcheck : ∀ b (s : SpawnEvidence) b', e.checkSpawnIntent b s = .ok b' ↔
        (s.unlaunched e.worker = true → e.host.intentStale s = true) ∧
          b' = (b || s.unlaunched e.worker) := fun _ _ _ => checkSpawnIntent_eq_ok
    exact fun _ => foldlM_eq_ok hcheck
  have hbypassed : (e.spawnEvidence.any fun s => s.unlaunched e.worker) = true ↔ e.Bypassed :=
    List.any_eq_true
  unfold livenessPreflight
  simp only [bind_eq_ok, Host.check_eq_ok]
  constructor
  · rintro ⟨_, ⟨hledger, rfl⟩, _, ⟨hjournal, rfl⟩, _, hcarriers, dead, hdead, stale, hstale, hlast⟩
    obtain ⟨hstatuses, rfl⟩ := (hstatus dead).mp hdead
    obtain ⟨hintents, rfl⟩ := (hintent stale).mp hstale
    refine ⟨⟨hledger, hjournal, ?_, hstatuses, hintents⟩, ?_⟩
    · exact fun c hc => Host.checkCarrier_eq_ok.mp (forM_eq_ok.mp hcarriers c hc)
    · rw [Bool.false_or] at hlast
      split at hlast
      · right
        simp only [require_bind_eq_ok, require_eq_ok, Bool.not_eq_true'] at hlast
        obtain ⟨hshows, hnamed, hrunning, hsame⟩ := hlast
        exact ⟨isEmpty_or_any_iff.mp hshows, hnamed, hrunning, hsame⟩
      · rename_i hbypass
        left
        rw [← hbypassed]
        by_contra hnot
        exact hbypass ⟨hactive, Bool.eq_false_iff.mpr hnot⟩
  · rintro ⟨hun, hlast⟩
    have hshown := (hstatus _).mpr ⟨hun.statuses, rfl⟩
    have hstale := (hintent _).mpr ⟨hun.intents, rfl⟩
    refine ⟨_, ⟨hun.ledger, rfl⟩, _, ⟨hun.journal, rfl⟩, ⟨⟩, ?_, _, hshown, _, hstale, ?_⟩
    · exact forM_eq_ok.mpr fun c hc => Host.checkCarrier_eq_ok.mpr (hun.carriers c hc)
    · rw [Bool.false_or]
      split
      · rename_i hstrict
        have hagrees : e.Agrees := by
          refine hlast.resolve_left ?_
          intro hbypass
          rw [hbypassed.mpr hbypass] at hstrict
          exact Bool.noConfusion hstrict.2
        simp only [require_bind_eq_ok, require_eq_ok, Bool.not_eq_true']
        exact ⟨isEmpty_or_any_iff.mpr hagrees.status, hagrees.ledger, hagrees.journal,
          hagrees.same⟩
      · rfl

/-! ### What the evidence has to prove -/

/-- Every process a document records, with the identity recorded beside it. -/
def recordedProcesses (e : WithdrawEvidence) : List (Value × Value) :=
  (e.ledgerPid, e.ledgerIdentity) :: (e.journalPid, e.worker) ::
    (e.carriers.flatMap fun c =>
      [(c.2.queueWorkerPid, c.2.queueWorkerIdentity),
        (c.2.queueClaimerPid, c.2.queueClaimerIdentity),
        (c.2.queueLauncherPid, c.2.queueLauncherIdentity)]) ++
    e.statusPaths.filterMap fun path => (e.status path).toOption.map fun s =>
      (s.workerPid, s.identity)

/-- A recorded process has a start token that is recorded for its pid, and is gone. -/
def Gone (e : WithdrawEvidence) (process : Value × Value) : Prop :=
  hasStartToken process.2 = true ∧
    ∃ pid, pidOf process.1 = some pid ∧ RecordedFor pid process.2 ∧
      e.host.ProvenGone pid process.2

/-- The row and the journal record one worker: the same pid with the same start token. -/
def SameWorker (e : WithdrawEvidence) : Prop :=
  e.ledgerPid.isAbsent = false ∧ e.journalPid.isAbsent = false ∧
    ∃ pid, e.ledgerPid.int? = some pid ∧ e.journalPid.int? = some pid ∧
      e.ledgerIdentity.get "start_token" = e.worker.get "start_token"

/-- Every status file that is named reads as a status of the dispatch; if any is named, one
records a worker or says that it is not alive. -/
def StatusShowsDead (e : WithdrawEvidence) : Prop :=
  (∀ path ∈ e.statusPaths, ∃ s, e.status path = .ok s) ∧
    (e.statusPaths = [] ∨ ∃ path ∈ e.statusPaths, e.showsDead path = true)

/-- No document at all records a worker. -/
def RecordsNoWorker (e : WithdrawEvidence) : Prop :=
  (∀ s ∈ e.spawnEvidence, s.queueWorkerPid.truthy = false ∧ s.workerPid.truthy = false) ∧
    e.journalPid.truthy = false ∧
    ∀ path ∈ e.statusPaths, ∀ s, e.status path = .ok s → s.workerPid.truthy = false

/-- A spawn was intended, and every intent is older than the claim-stale window. -/
def SpawnIntentStale (e : WithdrawEvidence) : Prop :=
  (∃ s ∈ e.spawnEvidence, s.hasIntent = true) ∧
    ∀ s ∈ e.spawnEvidence, s.hasIntent = true → e.host.intentStale s = true

/-- **What a started attempt may be retired on.**  Every recorded process is proven gone,
and the documents agree on a dead worker; or no document records a worker, and its spawn was
intended too long ago. -/
structure ProvesDead (e : WithdrawEvidence) : Prop where
  gone : ∀ process ∈ e.recordedProcesses, process.1.isAbsent = false → e.Gone process
  worker : (e.SameWorker ∧ e.StatusShowsDead) ∨ (e.RecordsNoWorker ∧ e.SpawnIntentStale)

/-- Every identity is recorded for the pid it stands beside. -/
def TokensRecordedFor (e : WithdrawEvidence) : Prop :=
  ∀ process ∈ e.recordedProcesses, ∀ pid, pidOf process.1 = some pid → RecordedFor pid process.2

/-- **When the preflight is right**: on evidence it does not refuse, every start token is
recorded for the pid beside it, and a spawn intent without a worker is in no document while
another records one, unless the documents agree all the same. -/
def Sound (e : WithdrawEvidence) : Prop :=
  e.Unrefuted → e.Bypassed ∨ e.Agrees →
    e.TokensRecordedFor ∧ (e.Bypassed → e.RecordsNoWorker ∨ e.Agrees)

theorem pidOf_of_isAbsent {pid : Value} (h : pid.isAbsent = true) : pidOf pid = none := by
  unfold pidOf
  rw [Value.orElse_of_not_truthy (Value.truthy_of_isAbsent h)]
  rfl

theorem Unrefuted.dead (hun : e.Unrefuted) {process : Value × Value}
    (hmem : process ∈ e.recordedProcesses) (hgiven : process.1.isAbsent = false) :
    hasStartToken process.2 = true ∧
      (e.host.queueClaimIdentityStatus process.1 process.2).1 = .dead := by
  have hpasses : e.host.Passes process.1 process.2 := by
    unfold recordedProcesses at hmem
    rw [List.mem_append, List.mem_cons, List.mem_cons, List.mem_flatMap, List.mem_filterMap] at hmem
    obtain (rfl | rfl | ⟨c, hc, hprocess⟩) | ⟨path, hpath, hprocess⟩ := hmem
    · exact hun.ledger
    · exact hun.journal
    · obtain ⟨hworker, hclaimer, hlauncher⟩ := hun.carriers c hc
      simp only [List.mem_cons, List.not_mem_nil, or_false] at hprocess
      obtain rfl | rfl | rfl := hprocess
      · exact hworker
      · exact hclaimer
      · exact hlauncher
    · obtain ⟨s, hs, hholds⟩ := hun.statuses path hpath
      rw [hs] at hprocess
      cases hprocess
      have hnames : s.namesWorker = true := by
        unfold StatusSidecar.namesWorker
        rw [hgiven]
        rfl
      rw [if_pos hnames] at hholds
      exact hholds.2
  unfold Host.Passes at hpasses
  rwa [hgiven, if_neg Bool.false_ne_true] at hpasses

/-- On unrefuted evidence, all that may be missing is that a token is recorded for the pid
beside it. -/
theorem Unrefuted.gone_iff (hun : e.Unrefuted) :
    (∀ process ∈ e.recordedProcesses, process.1.isAbsent = false → e.Gone process) ↔
      e.TokensRecordedFor := by
  constructor
  · intro hgone process hmem pid hpid
    have hgiven : process.1.isAbsent = false := by
      by_contra habsent
      rw [pidOf_of_isAbsent (Bool.not_eq_false _ ▸ habsent)] at hpid
      cases hpid
    obtain ⟨-, pid', hpid', hfor, -⟩ := hgone process hmem hgiven
    rw [hpid] at hpid'
    rwa [Option.some.inj hpid']
  · intro htokens process hmem hgiven
    obtain ⟨htoken, hdead⟩ := hun.dead hmem hgiven
    obtain ⟨pid, hpid, hgone⟩ := e.host.provenGone_of_dead hdead
    exact ⟨htoken, pid, hpid, htokens process hmem pid hpid, hgone⟩

theorem identitiesMatch_iff :
    e.identitiesMatch = true ↔
      (∃ pid, e.ledgerPid.int? = some pid ∧ e.journalPid.int? = some pid) ∧
        e.ledgerIdentity.isDict = true ∧
        e.ledgerIdentity.get "start_token" = e.worker.get "start_token" := by
  unfold identitiesMatch
  rw [Bool.and_eq_true, Bool.and_eq_true, Option.any_eq_true, decide_eq_true_eq, and_assoc]
  simp only [decide_eq_true_eq]

theorem Unrefuted.agrees_iff (hun : e.Unrefuted) :
    e.Agrees ↔ e.SameWorker ∧ e.StatusShowsDead := by
  constructor
  · rintro ⟨hstatus, hledger, hjournal, hsame⟩
    obtain ⟨⟨pid, hl, hj⟩, -, htoken⟩ := identitiesMatch_iff.mp hsame
    refine ⟨⟨hledger, hjournal, pid, hl, hj, htoken⟩, ?_, hstatus⟩
    intro path hpath
    obtain ⟨s, hs, -⟩ := hun.statuses path hpath
    exact ⟨s, hs⟩
  · rintro ⟨⟨hledger, hjournal, pid, hl, hj, htoken⟩, -, hstatus⟩
    have hmem : (e.ledgerPid, e.ledgerIdentity) ∈ e.recordedProcesses := List.mem_cons_self
    have hdict := (Bool.and_eq_true_iff.mp (hun.dead hmem hledger).1).1
    exact ⟨hstatus, hledger, hjournal, identitiesMatch_iff.mpr ⟨⟨pid, hl, hj⟩, hdict, htoken⟩⟩

/-- A spawn intent that took the way around was stale, and so is every other when no
document records a worker. -/
theorem Unrefuted.spawnIntentStale (hun : e.Unrefuted) (hbypassed : e.Bypassed)
    (hnone : e.RecordsNoWorker) : e.SpawnIntentStale := by
  obtain ⟨s, hs, hunlaunched⟩ := hbypassed
  refine ⟨⟨s, hs, (Bool.and_eq_true_iff.mp hunlaunched).1⟩, ?_⟩
  intro s' hs' hintent
  obtain ⟨hqueue, hworker⟩ := hnone.1 s' hs'
  have hjournal : (e.worker.get "pid").truthy = false := hnone.2.1
  refine hun.intents s' hs' ?_
  unfold SpawnEvidence.unlaunched
  rw [hintent, hqueue, hworker, hjournal]
  rfl

/-- **The liveness preflight, exactly.**  What it lets through proves the worker dead if and
only if the evidence is sound. -/
theorem livenessPreflight_provesDead_iff (hactive : e.Active) :
    (e.livenessPreflight = .ok ⟨⟩ → e.ProvesDead) ↔ e.Sound := by
  rw [livenessPreflight_eq_ok hactive]
  constructor
  · intro hproves hun hlast
    have hdead := hproves ⟨hun, hlast⟩
    refine ⟨hun.gone_iff.mp hdead.gone, ?_⟩
    intro _
    obtain hagrees | hnone := hdead.worker
    · exact .inr (hun.agrees_iff.mpr hagrees)
    · exact .inl hnone.1
  · rintro hsound ⟨hun, hlast⟩
    obtain ⟨htokens, haround⟩ := hsound hun hlast
    refine ⟨hun.gone_iff.mpr htokens, ?_⟩
    obtain hbypassed | hagrees := hlast
    · obtain hnone | hagrees := haround hbypassed
      · exact .inr ⟨hnone, hun.spawnIntentStale hbypassed hnone⟩
      · exact .inl (hun.agrees_iff.mp hagrees)
    · exact .inl (hun.agrees_iff.mp hagrees)

end WithdrawEvidence

/-! ### The preflight and the command -/

/-- The arguments of `withdraw`. -/
structure WithdrawArgs where
  reason : String
  supersededBy : Option String := none
  controllerLabel : Option String := none
  operator : Bool := false
  dryRun : Bool := false

/-- What one preflight reads. -/
structure WithdrawReading where
  host : Host
  dispatchId : String
  record : Option LedgerRow
  queue : QueueListing
  rootResolves : Bool
  attempt : Option DispatchAttempt
  statusFiles : String → StatusFile
  /-- The active controller sessions among the caller's ancestors. -/
  ancestorLabels : List String

/-- `json.loads(text or "{}")`, which has to be an object. -/
def loadsObject (text : Option String) : Except WithdrawRefusal Value :=
  match Capacity.given text with
  | none => .ok (.obj [])
  | some text =>
    match loads text.toList with
    | some (.obj fields) => .ok (.obj fields)
    | _ => .error .journalUnreadable

/-- What a preflight returns. -/
structure WithdrawPreflight where
  attempt : DispatchAttempt
  callerLabel : Option String
  recordTerminalState : Option String
  carriers : List (String × QueueEntry)
  withdrawnBy : Value

/-- `withdrawn`: the attempt was retired by a withdrawal. -/
def WithdrawPreflight.withdrawn (p : WithdrawPreflight) : Bool :=
  p.attempt.lifecycle.terminal?.any fun t =>
    (t.terminalState = "withdrawn" || t.terminalState = "superseded") && p.withdrawnBy.truthy

/-- The attempt is final in the journal and was not withdrawn. -/
def WithdrawPreflight.finalElsewhere (p : WithdrawPreflight) : Bool :=
  p.attempt.lifecycle.terminal?.isSome && !p.withdrawn

/-- Nothing is left to do of an earlier withdrawal. -/
def WithdrawPreflight.alreadyWithdrawn (p : WithdrawPreflight) : Bool :=
  p.withdrawn && p.carriers.isEmpty &&
    p.recordTerminalState = p.attempt.lifecycle.terminal?.map TerminalColumns.terminalState

theorem WithdrawPreflight.finalElsewhere_of_live (p : WithdrawPreflight)
    (h : p.attempt.lifecycle.terminal? = none) : p.finalElsewhere = false := by
  unfold WithdrawPreflight.finalElsewhere
  rw [h]
  rfl

theorem WithdrawPreflight.alreadyWithdrawn_of_live (p : WithdrawPreflight)
    (h : p.attempt.lifecycle.terminal? = none) : p.alreadyWithdrawn = false := by
  unfold WithdrawPreflight.alreadyWithdrawn WithdrawPreflight.withdrawn
  rw [h]
  rfl

namespace WithdrawReading

variable (r : WithdrawReading)

/-- The entry of a carrier that is read again. -/
def carrierEntry (s : CarrierStatus) : Except WithdrawRefusal (String × QueueEntry) :=
  match s.file.content with
  | .entry entry => .ok (s.file.path, entry)
  | _ => .error .carrierUnreadable

/-- The carriers of the dispatch; one with a live or an unknown owner is refused. -/
def carriers : Except WithdrawRefusal (List (String × QueueEntry)) :=
  match r.queue with
  | .unreadable => .error (.launchOwnership .unknown)
  | .raised => .error .carrierUnreadable
  | .files fs =>
    let statuses := r.host.carriersById fs r.dispatchId
    match statuses.find? fun s => s.kind = .live ∨ s.kind = .unknown with
    | some s => .error (.launchOwnership s.kind)
    | none => statuses.mapM carrierEntry

/-- `(record or entry).get("controller_label") or attempt.get("owner_controller_label")`. -/
def owner (carriers : List (String × QueueEntry)) (a : DispatchAttempt) : Option String :=
  let recorded := match r.record with
    | some row => row.controllerLabel
    | none => carriers.head?.bind fun c => c.2.controllerLabel
  (Capacity.given recorded).or a.ownerControllerLabel

/-- The controller the caller acts for. -/
def callerLabel (args : WithdrawArgs) : Except WithdrawRefusal (Option String) :=
  if args.operator ∨ (Capacity.given args.controllerLabel).isSome then .ok args.controllerLabel
  else
    match r.ancestorLabels with
    | [label] => .ok (some label)
    | _ => .error .callerAmbiguous

/-- The carriers and the attempt a preflight goes on with. -/
def gather : Except WithdrawRefusal (List (String × QueueEntry) × DispatchAttempt) := do
  require (∀ row, r.record = some row → ¬ row.Unreadable) .ledgerUnreadable
  let carriers ← r.carriers
  require (r.rootResolves = true) .rootUnresolvable
  match r.attempt with
  | none => .error .noAttempt
  | some a => .ok (carriers, a)

/-- The evidence of the liveness preflight. -/
def evidenceOf (carriers : List (String × QueueEntry)) (a : DispatchAttempt) (worker : Value) :
    WithdrawEvidence :=
  { host := r.host
    dispatchId := r.dispatchId
    lifecycle := a.lifecycle.state
    record := r.record
    worker := worker
    carriers := carriers
    statusFiles := r.statusFiles }

/-- `_withdraw_preflight`. -/
def preflight (args : WithdrawArgs) : Except WithdrawRefusal WithdrawPreflight := do
  let gathered ← r.gather
  let label ← r.callerLabel args
  require (args.operator = true ∨
    (Capacity.given label).isSome ∧ label = r.owner gathered.1 gathered.2) .notOwner
  let worker ← loadsObject gathered.2.workerInstance
  let outcome ← loadsObject (gathered.2.lifecycle.terminal?.map TerminalColumns.outcome)
  (r.evidenceOf gathered.1 gathered.2 worker).livenessPreflight
  require (¬ (gathered.2.lifecycle.terminal?.any (·.terminalState = "superseded") = true ∧
    (outcome.get "withdrawn_by").truthy = false)) .supersededUnproven
  pure ⟨gathered.2, label, r.record.bind LedgerRow.terminalState, gathered.1,
    outcome.get "withdrawn_by"⟩

end WithdrawReading

/-- What the command does. -/
inductive WithdrawOutcome
  | refused (reason : WithdrawRefusal)
  | settled
  | alreadyWithdrawn
  | dryRun
  | commit (attempt : DispatchAttempt) (terminalState : String)

/-- `_cmd_withdraw`: a preflight without locks, and under the locks a second one, after
which the journal attempt is made final. -/
def cmdWithdraw (args : WithdrawArgs) (first second : WithdrawReading) : WithdrawOutcome :=
  if args.reason.toList.all isBlank then .refused .reasonBlank
  else if args.supersededBy.any fun id => id.toList.all isBlank || id = first.dispatchId then
    .refused .supersededByInvalid
  else
    match first.preflight args with
    | .error reason => .refused reason
    | .ok p =>
      if p.finalElsewhere then .settled
      else if p.alreadyWithdrawn then .alreadyWithdrawn
      else if args.dryRun then .dryRun
      else
        match second.preflight { args with controllerLabel := p.callerLabel } with
        | .error reason => .refused reason
        | .ok q =>
          if q.finalElsewhere then .settled
          else if q.alreadyWithdrawn then .alreadyWithdrawn
          else .commit q.attempt
            ((p.attempt.lifecycle.terminal?.map TerminalColumns.terminalState).getD
              (if (Capacity.given args.supersededBy).isSome then "superseded" else "withdrawn"))

/-! ### What the command may retire -/

/-- The evidence a preflight judges. -/
def WithdrawReading.Evidence (r : WithdrawReading) (e : WithdrawEvidence) : Prop :=
  ∃ carriers a worker, r.gather = .ok (carriers, a) ∧
    loadsObject a.workerInstance = .ok worker ∧ e = r.evidenceOf carriers a worker

variable {r : WithdrawReading}

theorem WithdrawReading.Evidence.unique {e e' : WithdrawEvidence}
    (h : r.Evidence e) (h' : r.Evidence e') : e = e' := by
  obtain ⟨carriers, a, worker, hgather, hworker, rfl⟩ := h
  obtain ⟨carriers', a', worker', hgather', hworker', rfl⟩ := h'
  rw [hgather] at hgather'
  obtain ⟨rfl, rfl⟩ := Prod.mk.inj (Except.ok.inj hgather')
  rw [hworker] at hworker'
  rw [Except.ok.inj hworker']

theorem WithdrawReading.evidence_of_preflight {args : WithdrawArgs}
    {p : WithdrawPreflight} (h : r.preflight args = .ok p) :
    ∃ e, r.Evidence e ∧ e.lifecycle = p.attempt.lifecycle.state ∧
      e.livenessPreflight = .ok ⟨⟩ := by
  unfold WithdrawReading.preflight at h
  simp only [bind_eq_ok] at h
  obtain ⟨gathered, hgather, _, -, _, -, worker, hworker, outcome, -, ⟨⟩, hlive, _, -, hp⟩ := h
  cases hp
  exact ⟨_, ⟨gathered.1, gathered.2, worker, hgather, hworker, rfl⟩, rfl, hlive⟩

theorem WithdrawReading.preflight_of_evidence {e : WithdrawEvidence}
    (args : WithdrawArgs) (hoperator : args.operator = true) (h : r.Evidence e)
    (hactive : e.Active) (hlive : e.livenessPreflight = .ok ⟨⟩) :
    ∃ p, r.preflight args = .ok p ∧ p.attempt.lifecycle.terminal? = none ∧
      p.attempt.lifecycle.state = e.lifecycle := by
  obtain ⟨carriers, a, worker, hgather, hworker, rfl⟩ := h
  have hterminal : a.lifecycle.terminal? = none := by
    cases hlifecycle : a.lifecycle with
    | live s => rfl
    | final t =>
      unfold WithdrawEvidence.Active WithdrawReading.evidenceOf at hactive
      simp [hlifecycle, Lifecycle.state] at hactive
  have hlabel : r.callerLabel args = .ok args.controllerLabel := by
    unfold WithdrawReading.callerLabel
    rw [hoperator, if_pos (.inl rfl)]
  have houtcome : loadsObject (a.lifecycle.terminal?.map TerminalColumns.outcome) =
      .ok (.obj []) := by
    rw [hterminal]
    rfl
  refine ⟨⟨a, args.controllerLabel, r.record.bind LedgerRow.terminalState, carriers, .null⟩,
    ?_, hterminal, rfl⟩
  unfold WithdrawReading.preflight
  simp only [bind_eq_ok]
  refine ⟨_, hgather, _, hlabel, ⟨⟩, ?_, worker, hworker, _, houtcome, ⟨⟩, hlive, ⟨⟩, ?_, rfl⟩
  · exact require_eq_ok.mpr (.inl hoperator)
  · refine require_eq_ok.mpr ?_
    rw [hterminal]
    exact fun hboth => Bool.false_ne_true hboth.1

/-- The command makes an attempt final that was `STARTING` or `RUNNING`. -/
def RetiresStarted (args : WithdrawArgs) (first second : WithdrawReading) : Prop :=
  ∃ a terminalState, cmdWithdraw args first second = .commit a terminalState ∧
    (a.lifecycle.state = .live .starting ∨ a.lifecycle.state = .live .running)

theorem RetiresStarted.evidence {args : WithdrawArgs} {first second : WithdrawReading}
    (h : RetiresStarted args first second) :
    ∃ e, second.Evidence e ∧ e.Active ∧ e.livenessPreflight = .ok ⟨⟩ := by
  obtain ⟨a, terminalState, hcommit, hstarted⟩ := h
  unfold cmdWithdraw at hcommit
  split at hcommit
  · cases hcommit
  split at hcommit
  · cases hcommit
  split at hcommit
  · cases hcommit
  split at hcommit
  · cases hcommit
  split at hcommit
  · cases hcommit
  split at hcommit
  · cases hcommit
  split at hcommit
  · cases hcommit
  rename_i q hpreflight
  split at hcommit
  · cases hcommit
  split at hcommit
  · cases hcommit
  cases hcommit
  obtain ⟨e, hevidence, hlifecycle, hlive⟩ := second.evidence_of_preflight hpreflight
  refine ⟨e, hevidence, ?_, hlive⟩
  unfold WithdrawEvidence.Active
  rw [hlifecycle]
  exact hstarted

theorem retiresStarted_of_evidence {e : WithdrawEvidence}
    (h : r.Evidence e) (hactive : e.Active) (hlive : e.livenessPreflight = .ok ⟨⟩) :
    RetiresStarted { reason := "retired", operator := true } r r := by
  obtain ⟨p, hp, hlive', -⟩ :=
    r.preflight_of_evidence { reason := "retired", operator := true } rfl h hactive hlive
  obtain ⟨q, hq, hlive'', hstate⟩ := r.preflight_of_evidence
    { reason := "retired", controllerLabel := p.callerLabel, operator := true } rfl h hactive hlive
  have hblank : ¬ ("retired".toList.all isBlank) = true := by decide
  refine ⟨q.attempt, "withdrawn", ?_, ?_⟩
  · unfold cmdWithdraw
    rw [if_neg hblank]
    simp [hp, hq, hlive', p.finalElsewhere_of_live hlive', p.alreadyWithdrawn_of_live hlive',
      q.finalElsewhere_of_live hlive'', q.alreadyWithdrawn_of_live hlive'', Capacity.given]
  · rw [hstate]
    exact hactive

/-- The evidence of the reading proves the worker dead. -/
def WithdrawReading.ProvesDead (r : WithdrawReading) : Prop := ∀ e, r.Evidence e → e.ProvesDead

/-- The evidence of the reading is sound. -/
def WithdrawReading.Sound (r : WithdrawReading) : Prop :=
  ∀ e, r.Evidence e → e.Active → e.Sound

/-- **Withdrawing never retires live work, exactly when the evidence is sound.**  For what
is read under the locks, whatever was read before them and whoever asks: a started attempt
is retired only on proof that its worker is dead, if and only if every start token is
recorded for the pid beside it and no spawn intent without a worker takes the way around
while a document records one. -/
theorem withdraw_retires_dead_iff (r : WithdrawReading) :
    (∀ args first, RetiresStarted args first r → r.ProvesDead) ↔ r.Sound := by
  constructor
  · intro hretires e hevidence hactive
    refine (WithdrawEvidence.livenessPreflight_provesDead_iff hactive).mp ?_
    intro hlive
    exact hretires _ r (retiresStarted_of_evidence hevidence hactive hlive) e hevidence
  · intro hsound args first hretires e hevidence
    obtain ⟨e', hevidence', hactive, hlive⟩ := hretires.evidence
    obtain rfl := hevidence.unique hevidence'
    exact (WithdrawEvidence.livenessPreflight_provesDead_iff hactive).mpr
      (hsound e hevidence hactive) hlive

/-! ### The way around -/

/-- An identity with a pid and a start token. -/
def recordedIdentity (pid : ℤ) (token : String) : Value :=
  .obj [("pid", .int pid), ("start_token", .str token)]

/-- A launch that died between recording its worker in the ledger and in its claim: the
ledger row names the worker, the claim has only a spawn intent, and the journal attempt is
still `STARTING`. -/
def interruptedLaunch : WithdrawReading where
  host := { now := 1000, processIdentity := fun _ => .gone }
  dispatchId := "d1"
  record := some { dispatchId := "d1", state := "running", workerPid := .int 7,
                   workerIdentity := recordedIdentity 7 "w" }
  queue := .files [⟨"d1.json.claimed-5-1", .claim "d1", .entry
    { dispatchId := "d1", queueClaimerPid := .int 5, queueClaimerIdentity := recordedIdentity 5 "c"
      queueLauncherPid := .int 6, queueLauncherIdentity := recordedIdentity 6 "l"
      queueWorkerSpawnIntent := true, queueWorkerSpawnIntentAt := .at 100 }⟩]
  rootResolves := true
  attempt := some
    { attemptId := "a1", dispatchId := "d1", lifecycle := .live .starting, launchEpoch := 1
      launchToken := "t", workerInstance := none, preparedAt := "0", stateUpdatedAt := "0"
      startDeadlineAt := none, ownerControllerLabel := none, ownerSessionDigest := none
      effectiveAccount := none, engine := none }
  statusFiles := fun _ => .absent
  ancestorLabels := []

/-- What a preflight reads of the interrupted launch. -/
def interruptedEvidence : WithdrawEvidence :=
  interruptedLaunch.evidenceOf
    [("d1.json.claimed-5-1",
      { dispatchId := "d1"
        queueClaimerPid := .int 5, queueClaimerIdentity := recordedIdentity 5 "c"
        queueLauncherPid := .int 6, queueLauncherIdentity := recordedIdentity 6 "l"
        queueWorkerSpawnIntent := true, queueWorkerSpawnIntentAt := .at 100 })]
    { attemptId := "a1", dispatchId := "d1", lifecycle := .live .starting, launchEpoch := 1
      launchToken := "t", workerInstance := none, preparedAt := "0", stateUpdatedAt := "0"
      startDeadlineAt := none, ownerControllerLabel := none, ownerSessionDigest := none
      effectiveAccount := none, engine := none }
    (.obj [])

theorem interruptedLaunch_evidence : interruptedLaunch.Evidence interruptedEvidence :=
  ⟨_, _, _, rfl, rfl, rfl⟩

theorem interruptedEvidence_live : interruptedEvidence.livenessPreflight = .ok ⟨⟩ := by
  refine (WithdrawEvidence.livenessPreflight_eq_ok (.inl rfl)).mpr ⟨⟨?_, ?_, ?_, ?_, ?_⟩, ?_⟩
  · exact ⟨rfl, rfl⟩
  · rfl
  · intro c hc
    obtain rfl := List.mem_singleton.mp hc
    exact ⟨rfl, ⟨rfl, rfl⟩, rfl, rfl⟩
  · intro path hpath
    cases hpath
  · intro s hs hunlaunched
    obtain rfl | hs := List.mem_cons.mp hs
    · cases hunlaunched
    · obtain rfl := List.mem_singleton.mp hs
      decide +kernel
  · exact .inl ⟨_, List.mem_cons_of_mem _ List.mem_cons_self, rfl⟩

/-- The operator retires it, although the ledger records a worker and the journal none. -/
theorem withdraw_retires_unagreed :
    ∃ args first r, RetiresStarted args first r ∧ ¬ r.ProvesDead := by
  refine ⟨_, interruptedLaunch, interruptedLaunch,
    retiresStarted_of_evidence interruptedLaunch_evidence (.inl rfl) interruptedEvidence_live, ?_⟩
  intro hproves
  obtain ⟨-, hworker⟩ := hproves interruptedEvidence interruptedLaunch_evidence
  obtain ⟨⟨-, hjournal, -⟩, -⟩ | ⟨⟨hnone, -⟩, -⟩ := hworker
  · cases hjournal
  · cases (hnone _ List.mem_cons_self).2

end GoalFlight.Dispatch
