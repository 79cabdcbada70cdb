import GoalFlight.Dispatch.Documents
import GoalFlight.Library.JsonDocument

/-!
# Ledger: the process a row stands for

A ledger row has the pid of its worker, of its claimant and of its controller, and beside each
the identity that the process had.  `identity_matches` takes the first pid that is there and
the first identity that is there, each by a fallback of its own, and
`worker_identity_liveness` and `classify` go by what the comparison says.

`liveness_dead_iff` has what the answer `dead` stands for: the pid is gone, or the identity
that was taken contradicts the process that has it.
-/

namespace GoalFlight.Ledger

open Json Json.Value GoalFlight.Dispatch

/-! ### The two fallbacks -/

/-- `record.get("worker_pid") or record.get("claimant_pid") or record.get("controller_pid")`. -/
def recordPid (r : LedgerRow) : Value :=
  r.workerPid.orElse (r.claimantPid.orElse r.controllerPid)

/-- The same of the identities, or `{}`. -/
def recordIdentity (r : LedgerRow) : Value :=
  r.workerIdentity.orElse (r.claimantIdentity.orElse (r.controllerIdentity.orElse (.obj [])))

/-- The identity that stands beside the pid that is taken. -/
def ownIdentity (r : LedgerRow) : Value :=
  if r.workerPid.truthy then r.workerIdentity
  else if r.claimantPid.truthy then r.claimantIdentity
  else r.controllerIdentity

/-- `identity_matches`; no value where it raises. -/
def identityMatches (h : Host) (r : LedgerRow) : Option (Bool × IdentityReason) :=
  if !(recordPid r).truthy then some (false, .noPid)
  else
    match (recordPid r).int? with
    | none => none
    | some pid =>
      match h.processIdentity pid with
      | .raised => none
      | .gone => some (false, .dead)
      | .running _ =>
        if (recordIdentity r).isDict then h.identityMatches pid (recordIdentity r) else none

/-- The answers of `worker_identity_liveness`. -/
inductive Liveness
  | live
  | dead
  | unknown

/-- `worker_identity_liveness`; no value where it raises. -/
def workerIdentityLiveness (h : Host) (r : LedgerRow) : Option (Liveness × IdentityReason) :=
  (identityMatches h r).map fun
    | (matched, reason) =>
      if reason = .noPid ∨ reason = .identityIndeterminate then (.unknown, reason)
      else if matched then (.live, reason)
      else (.dead, reason)

/-- A field that no other reader looks at. -/
def otherField (r : LedgerRow) (key : String) : Value := (r.others.lookup key).getD .null

/-- `_is_detached_controller_dead_record`. -/
def isDetachedControllerDead (r : LedgerRow) : Bool :=
  (otherField r "detached").truthy &&
    (r.state = "controller_dead" ||
      (r.state = "orphaned" && r.cause = .str "controller_dead"))

/-- `classify`, of a row that has a state; no value where it raises. -/
def classify (h : Host) (r : LedgerRow) : Option String :=
  if isDetachedControllerDead r then
    (identityMatches h r).map fun
      | (matched, reason) =>
        if reason = .identityIndeterminate then "identity_indeterminate"
        else if matched then "expected_live"
        else if reason = .dead then "worker_dead"
        else if reason = .noPid then "unknown_no_pid"
        else "stale_" ++ reason.text
  else if isTerminalState r.state then some r.state
  else if r.state = "queued" ∨ r.state = "waiting_capacity" then some "queued_capacity"
  else
    (identityMatches h r).map fun
      | (matched, reason) =>
        if reason = .identityIndeterminate then "identity_indeterminate"
        else if matched then "expected_live"
        else if r.state = "watcher_stopped" then "watcher_stopped"
        else if reason = .noPid then "unknown_no_pid"
        else "stale_" ++ reason.text

/-! ### What the answer `dead` stands for -/

/-- The identity contradicts the process that has the pid: it is compared, and the comparison
says that the process is another one. -/
def Contradicts (h : Host) (pid : ℤ) (identity : Value) : Prop :=
  identity.isDict = true ∧ ∃ reason, h.identityMatches pid identity = some (false, reason) ∧
    reason ≠ .identityIndeterminate

instance (recorded current : Value) : Decidable (StartDiffers recorded current) :=
  inferInstanceAs (Decidable (_ ∨ _))

/-- The identity is recorded for this pid: it stands beside it, or names it. -/
def RecordedIdentity (worker : Option Value) (r : LedgerRow) (pid : ℤ) (identity : Value) : Prop :=
  (identity = ownIdentity r ∧ RecordedFor pid identity) ∨
    (identity ∈ [r.workerIdentity, r.claimantIdentity, r.controllerIdentity] ++ worker.toList ∧
      (identity.get "pid").truthy = true ∧ (identity.get "pid").int? = some pid)

/-- The pid of the process that is recorded for a dispatch: of the worker of the row or of the
running attempt, and only without one of the claimant or the controller. -/
def dispatchPid (worker : Option Value) (r : LedgerRow) : Value :=
  r.workerPid.orElse ((worker.elim .null (·.get "pid")).orElse
    (r.claimantPid.orElse r.controllerPid))

/-- **The process recorded for the dispatch is gone**: nothing has its pid, or what has it
started otherwise than an identity recorded for that pid says. -/
def WorkerGone (h : Host) (worker : Option Value) (r : LedgerRow) : Prop :=
  ∃ pid, (dispatchPid worker r).truthy = true ∧ (dispatchPid worker r).int? = some pid ∧
    (h.processIdentity pid = .gone ∨
      ∃ current, h.processIdentity pid = .running current ∧
        ∃ identity, RecordedIdentity worker r pid identity ∧ StartDiffers identity current)

variable {h : Host} {r : LedgerRow}

theorem identityMatches_eq_some {verdict : Bool × IdentityReason}
    (hmatch : identityMatches h r = some verdict) (hreason : verdict.2 ≠ .noPid) :
    ∃ pid, (recordPid r).truthy = true ∧ (recordPid r).int? = some pid ∧
      (h.processIdentity pid = .gone ∧ verdict = (false, .dead) ∨
        ∃ current, h.processIdentity pid = .running current ∧ (recordIdentity r).isDict = true ∧
          h.identityMatches pid (recordIdentity r) = some verdict) := by
  unfold identityMatches at hmatch
  split at hmatch
  · cases hmatch
    exact absurd rfl hreason
  rename_i hpid
  rw [Bool.not_eq_true', Bool.not_eq_false] at hpid
  split at hmatch
  · cases hmatch
  rename_i pid hint
  refine ⟨pid, hpid, hint, ?_⟩
  split at hmatch
  · cases hmatch
  · rename_i hgone
    cases hmatch
    exact .inl ⟨hgone, rfl⟩
  · rename_i current hrunning
    split at hmatch
    · exact .inr ⟨current, hrunning, ‹_›, hmatch⟩
    · cases hmatch

theorem reason_of_running {pid : ℤ} {identity current : Value} {matched : Bool}
    {reason : IdentityReason} (hrunning : h.processIdentity pid = .running current)
    (hmatch : h.identityMatches pid identity = some (matched, reason)) :
    reason ≠ .noPid ∧ reason ≠ .dead := by
  unfold Host.identityMatches at hmatch
  simp only [hrunning] at hmatch
  split at hmatch
  · cases hmatch
    exact ⟨nofun, nofun⟩
  split at hmatch
  · cases hmatch
    exact ⟨nofun, nofun⟩
  split at hmatch
  · cases hmatch
    exact ⟨nofun, nofun⟩
  unfold compareProcessIdentities at hmatch
  split at hmatch
  · cases hmatch
    exact ⟨nofun, nofun⟩
  split at hmatch
  · obtain ⟨mismatch, -, hverdict⟩ := Option.map_eq_some_iff.mp hmatch
    split at hverdict
    · cases hverdict
      exact ⟨nofun, nofun⟩
    split at hverdict
    · cases hverdict
      exact ⟨nofun, nofun⟩
    split at hverdict
    · cases hverdict
      exact ⟨nofun, nofun⟩
    split at hverdict
    · cases hverdict
      exact ⟨nofun, nofun⟩
    · cases hverdict
      exact ⟨nofun, nofun⟩
  · cases hmatch
    exact ⟨nofun, nofun⟩

theorem gone_of_identityMatches {matched : Bool}
    (hmatch : identityMatches h r = some (matched, .dead)) :
    ∃ pid, (recordPid r).truthy = true ∧ (recordPid r).int? = some pid ∧
      h.processIdentity pid = .gone := by
  obtain ⟨pid, hpid, hint, ⟨hgone, -⟩ | ⟨current, hrunning, -, hcompare⟩⟩ :=
    identityMatches_eq_some hmatch nofun
  · exact ⟨pid, hpid, hint, hgone⟩
  · exact absurd rfl (reason_of_running hrunning hcompare).2

/-- **When a worker is taken for dead.** -/
theorem liveness_dead_iff :
    (∃ reason, workerIdentityLiveness h r = some (.dead, reason)) ↔
      ∃ pid, (recordPid r).truthy = true ∧ (recordPid r).int? = some pid ∧
        (h.processIdentity pid = .gone ∨
          ∃ current, h.processIdentity pid = .running current ∧
            Contradicts h pid (recordIdentity r)) := by
  constructor
  · rintro ⟨reason, hliveness⟩
    obtain ⟨⟨matched, found⟩, hmatch, hanswer⟩ := Option.map_eq_some_iff.mp hliveness
    simp only at hanswer
    split at hanswer
    · cases hanswer
    rename_i hreason
    rw [not_or] at hreason
    obtain ⟨pid, hpid, hint, hcase⟩ := identityMatches_eq_some hmatch hreason.1
    refine ⟨pid, hpid, hint, ?_⟩
    rcases hcase with ⟨hgone, -⟩ | ⟨current, hrunning, hdict, hcompare⟩
    · exact .inl hgone
    · refine .inr ⟨current, hrunning, hdict, found, ?_, hreason.2⟩
      cases matched with
      | true => cases hanswer
      | false => exact hcompare
  · rintro ⟨pid, hpid, hint, hgone | ⟨current, hrunning, hdict, reason, hcompare, hreason⟩⟩
    · refine ⟨.dead, ?_⟩
      have hmatch : identityMatches h r = some (false, .dead) := by
        unfold identityMatches
        rw [hpid, hint]
        simp only [hgone]
        rfl
      unfold workerIdentityLiveness
      rw [hmatch]
      rfl
    · have hmatch : identityMatches h r = some (false, reason) := by
        unfold identityMatches
        rw [hpid, hint]
        simp only [hrunning, hdict, hcompare]
        rfl
      have hnoPid : reason ≠ .noPid :=
        (reason_of_running hrunning hcompare).1
      refine ⟨reason, ?_⟩
      unfold workerIdentityLiveness
      rw [hmatch]
      show some (if reason = .noPid ∨ reason = .identityIndeterminate then _ else _) = _
      rw [if_neg (not_or.mpr ⟨hnoPid, hreason⟩)]
      rfl

/-- The identity that stands beside the pid is recorded for it unless it names another. -/
theorem recordedIdentity_own {worker : Option Value} {pid : ℤ}
    (hfor : RecordedFor pid (ownIdentity r)) : RecordedIdentity worker r pid (ownIdentity r) :=
  .inl ⟨rfl, hfor⟩

/-- A row that has its worker, or a dispatch whose attempt has none, is compared by the pid of
the dispatch. -/
theorem dispatchPid_eq_recordPid {worker : Option Value}
    (hworker : worker = none ∨ r.workerPid.truthy = true) : dispatchPid worker r = recordPid r := by
  unfold dispatchPid recordPid
  rcases hworker with rfl | hpid
  · rfl
  · rw [orElse_of_truthy hpid, orElse_of_truthy hpid]

end GoalFlight.Ledger
