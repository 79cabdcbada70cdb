import GoalFlight.Library.JsonDynamic
import Mathlib.Algebra.Order.Ring.Rat

/-!
# Dispatch: the process a document names

A queue entry, a ledger row and a status file each record a pid and, beside it, the identity
the process had when it was recorded.  `scripts/goalflight_ledger.py` compares the recorded
identity with the one the process table has now, and `scripts/goalflight_dispatch.py` makes
one of four verdicts of the comparison: `live`, `dead`, `indeterminate` and `no_pid`.

`Host.provenGone_of_dead` says what the verdict `dead` proves.
-/

namespace GoalFlight.Dispatch

open Json

variable {pid : ℤ}

/-- Unix seconds. -/
abbrev Seconds := ℚ

/-- What `process_identity` answers for a pid. -/
inductive Probe
  | raised
  | gone
  | running (identity : Value)

/-- What the host answers at one moment. -/
structure Host where
  windows : Bool := false
  now : Seconds
  /-- `goalflight_ledger.process_identity`, asked of positive pids. -/
  processIdentity : ℤ → Probe

variable {h : Host}

/-! ### Comparing identities -/

/-- The reasons of a comparison. -/
inductive IdentityReason
  | noPid
  | dead
  | identityIndeterminate
  | identityPidMismatch
  | pidReusedLstart
  | pidReusedStartToken
  | live
  | identityProviderException
deriving DecidableEq

/-- The reason as the source writes it. -/
def IdentityReason.text : IdentityReason → String
  | .noPid => "no_pid"
  | .dead => "dead"
  | .identityIndeterminate => "identity_indeterminate"
  | .identityPidMismatch => "identity_pid_mismatch"
  | .pidReusedLstart => "pid_reused_lstart"
  | .pidReusedStartToken => "pid_reused_start_token"
  | .live => "live"
  | .identityProviderException => "identity_provider_exception"

/-- `reason.startswith("pid_reused")`. -/
def IdentityReason.isPidReused : IdentityReason → Bool
  | .pidReusedLstart | .pidReusedStartToken => true
  | _ => false

/-- Both identities have the field. -/
def bothHave (key : String) (a b : Value) : Bool := (a.get key).truthy && (b.get key).truthy

/-- Both identities have the field, with different values. -/
def differIn (key : String) (a b : Value) : Bool := bothHave key a b && a.get key ≠ b.get key

/-- `expected_identity["pid"]` is given and is not the pid.  Without a value the
conversion raises. -/
def identityPidDiffers (pid : ℤ) (expected : Value) : Option Bool :=
  if (expected.get "pid").truthy then (expected.get "pid").int?.map fun p => p ≠ pid
  else some false

/-- `compare_process_identities`, for a process that is there; no value where it raises. -/
def compareProcessIdentities (pid : ℤ) (expected current : Value) :
    Option (Bool × IdentityReason) :=
  if (current.get "identity_probe_error").truthy then some (true, .identityIndeterminate)
  else if expected.truthy then
    (identityPidDiffers pid expected).map fun mismatch =>
      if mismatch then (false, .identityPidMismatch)
      else if differIn "start_token" expected current then (false, .pidReusedStartToken)
      else if differIn "lstart" expected current then (false, .pidReusedLstart)
      else if ¬ bothHave "start_token" expected current then (true, .identityIndeterminate)
      else (true, .live)
  else some (true, .identityIndeterminate)

/-- `identity.get("identity_available", True)`. -/
def identityAvailable (identity : Value) : Bool :=
  (identity.getD "identity_available" (.bool true)).truthy

/-- `identity_matches` of a record that has only a worker; no value where it raises. -/
def Host.identityMatches (h : Host) (pid : ℤ) (prior : Value) :
    Option (Bool × IdentityReason) :=
  match h.processIdentity pid with
  | .raised => none
  | .gone => some (false, .dead)
  | .running current =>
    let fineStartAvailable := bothHave "start_token" prior current
    if ¬ fineStartAvailable ∧ differIn "lstart" prior current then
      some (false, .pidReusedLstart)
    else if h.windows ∧ ¬ fineStartAvailable ∧ ¬ identityAvailable current then
      some (false, .identityIndeterminate)
    else if ¬ fineStartAvailable ∧ (¬ identityAvailable current ∨ ¬ identityAvailable prior) then
      some (true, .identityIndeterminate)
    else compareProcessIdentities pid prior current

/-! ### The verdict -/

/-- The verdicts of `_queue_claim_identity_status`. -/
inductive ClaimIdentity
  | live
  | dead
  | indeterminate
  | noPid
deriving DecidableEq

/-- `int(pid_value or 0)`, where it is a pid. -/
def pidOf (pidValue : Value) : Option ℤ :=
  (pidValue.orElse (.int 0)).int?.filter (0 < ·)

/-- What a comparison is taken for. -/
def claimIdentityOf : Option (Bool × IdentityReason) → ClaimIdentity × IdentityReason
  | none => (.indeterminate, .identityProviderException)
  | some (_, .identityIndeterminate) => (.indeterminate, .identityIndeterminate)
  | some (true, reason) => (.live, reason)
  | some (false, reason) =>
    if reason = .dead ∨ reason = .noPid ∨ reason.isPidReused then (.dead, reason)
    else (.indeterminate, reason)

/-- `_queue_claim_identity_status`. -/
def Host.queueClaimIdentityStatus (h : Host) (pidValue identity : Value) :
    ClaimIdentity × IdentityReason :=
  match pidOf pidValue with
  | none => (.noPid, .noPid)
  | some pid => claimIdentityOf (h.identityMatches pid (if identity.isDict then identity else .obj []))

/-! ### What the verdict `dead` stands for -/

/-- The process that has a pid now did not start when the recorded one did. -/
def StartDiffers (recorded current : Value) : Prop :=
  differIn "start_token" recorded current = true ∨ differIn "lstart" recorded current = true

/-- **Proof that the recorded process is gone**: nothing has its pid, or what has it
started at another time. -/
def Host.ProvenGone (h : Host) (pid : ℤ) (recorded : Value) : Prop :=
  h.processIdentity pid = .gone ∨
    ∃ current, h.processIdentity pid = .running current ∧ StartDiffers recorded current

/-- The identity is recorded for this pid: it names no other. -/
def RecordedFor (pid : ℤ) (identity : Value) : Prop :=
  (identity.get "pid").truthy = true → (identity.get "pid").int? = some pid

theorem identityPidDiffers_eq_false_iff {expected : Value} :
    identityPidDiffers pid expected = some false ↔ RecordedFor pid expected := by
  unfold identityPidDiffers RecordedFor
  split
  · rename_i hgiven
    cases hint : (expected.get "pid").int? with
    | none => simp [hgiven]
    | some p => simp [hgiven]
  · rename_i hmissing
    simp [hmissing]

theorem compareProcessIdentities_reused {expected current : Value} {reason : IdentityReason}
    (h : compareProcessIdentities pid expected current = some (false, reason))
    (hreused : reason ≠ .identityPidMismatch) :
    RecordedFor pid expected ∧ StartDiffers expected current ∧ reason.isPidReused = true := by
  unfold compareProcessIdentities at h
  split at h
  · cases h
  · split at h
    · obtain ⟨mismatch, hpid, hverdict⟩ := Option.map_eq_some_iff.mp h
      cases mismatch with
      | true =>
        obtain ⟨-, rfl⟩ := Prod.mk.inj hverdict
        exact absurd rfl hreused
      | false =>
        have hfor := identityPidDiffers_eq_false_iff.mp hpid
        rw [if_neg Bool.false_ne_true] at hverdict
        split at hverdict
        · rename_i htoken
          obtain ⟨-, rfl⟩ := Prod.mk.inj hverdict
          exact ⟨hfor, .inl htoken, rfl⟩
        · split at hverdict
          · rename_i hlstart
            obtain ⟨-, rfl⟩ := Prod.mk.inj hverdict
            exact ⟨hfor, .inr hlstart, rfl⟩
          · split at hverdict <;> cases hverdict
    · cases h

/-- A comparison that says `false` without being undecided: nothing has the pid, the start
time alone differs, or the tokens are compared. -/
theorem Host.identityMatches_false {prior : Value} {reason : IdentityReason}
    (hmatch : h.identityMatches pid prior = some (false, reason))
    (hdead : reason = .dead ∨ reason = .noPid ∨ reason.isPidReused = true) :
    h.ProvenGone pid prior := by
  unfold Host.identityMatches at hmatch
  cases hprobe : h.processIdentity pid with
  | raised => simp [hprobe] at hmatch
  | gone => exact .inl hprobe
  | running current =>
    right
    refine ⟨current, hprobe, ?_⟩
    simp only [hprobe] at hmatch
    split at hmatch
    · rename_i hcoarse
      exact .inr hcoarse.2
    · split at hmatch
      · obtain ⟨-, rfl⟩ := Prod.mk.inj (Option.some.inj hmatch)
        simp [IdentityReason.isPidReused] at hdead
      · split at hmatch
        · cases hmatch
        · have hne : reason ≠ .identityPidMismatch := by
            rintro rfl
            simp [IdentityReason.isPidReused] at hdead
          exact (compareProcessIdentities_reused hmatch hne).2.1

theorem claimIdentityOf_dead {outcome : Option (Bool × IdentityReason)}
    (h : (claimIdentityOf outcome).1 = .dead) :
    ∃ reason, outcome = some (false, reason) ∧
      (reason = .dead ∨ reason = .noPid ∨ reason.isPidReused = true) := by
  unfold claimIdentityOf at h
  split at h
  · cases h
  · cases h
  · cases h
  · rename_i reason _
    split at h
    · rename_i hreason
      exact ⟨reason, rfl, hreason⟩
    · cases h

theorem Host.provenGone_of_replaced {identity : Value}
    (hgone : h.ProvenGone pid (if identity.isDict then identity else .obj [])) :
    h.ProvenGone pid identity := by
  split at hgone
  · exact hgone
  · obtain habsent | ⟨current, -, hdiffers⟩ := hgone
    · exact .inl habsent
    · obtain hdiffers | hdiffers := hdiffers <;> cases hdiffers

/-- **The verdict `dead` is a proof.**  The document records a pid, and the recorded process
is gone. -/
theorem Host.provenGone_of_dead {pidValue identity : Value}
    (hdead : (h.queueClaimIdentityStatus pidValue identity).1 = .dead) :
    ∃ pid, pidOf pidValue = some pid ∧ h.ProvenGone pid identity := by
  unfold Host.queueClaimIdentityStatus at hdead
  cases hpid : pidOf pidValue with
  | none =>
    rw [hpid] at hdead
    cases hdead
  | some pid =>
    rw [hpid] at hdead
    obtain ⟨reason, hmatch, hreason⟩ := claimIdentityOf_dead hdead
    exact ⟨pid, rfl, h.provenGone_of_replaced (h.identityMatches_false hmatch hreason)⟩

end GoalFlight.Dispatch
