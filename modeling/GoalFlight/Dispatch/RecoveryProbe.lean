import GoalFlight.Dispatch.Identity
import GoalFlight.Library.Machine
import GoalFlight.Tasks.Records

/-!
# Dispatch: the probe a recovery pass leaves on a claim

A recovery pass that can neither restore nor quarantine a claim of dead processes leaves a
`recovery_probe` on it, and the passes after it skip the claim until `next_probe_at`.

The pass writes its probe without the queue lock: it reads the claim, sees that it exists, and
replaces it whole by what it read and the probe.  `recovery_probe_pure`: where nothing is done to
the claim in between, and the read does not fail, the probe changes no other field and no claim
comes back.
-/

namespace GoalFlight.Dispatch

open Json
open GoalFlight.Tasks (textValue boolValue strOrEmpty)

variable {e : Mapping} {h : Host}

/-! ### What a probe is bound to -/

/-- One recorded process: the key of its pid, its pid and its start token. -/
structure RecordedPair where
  role : String
  pid : ℤ
  startToken : String

/-- The pair as the source writes it down. -/
def RecordedPair.value (p : RecordedPair) : Value :=
  .obj [("pid", .int p.pid), ("role", .str p.role), ("start_token", .str p.startToken)]

/-- What `_recovery_identity_fingerprint` answers. -/
structure Fingerprint where
  queueLaunchToken : String
  identities : List RecordedPair

theorem wellFormedItems_pairs (pairs : List RecordedPair) :
    wellFormedItems (pairs.map RecordedPair.value) = true := by
  induction pairs with
  | nil => rfl
  | cons p rest ih =>
    rw [List.map_cons, wellFormedItems, ih]
    rfl

/-- The fingerprint in a file; its keys are sorted there. -/
def Fingerprint.document (f : Fingerprint) : Document :=
  ⟨.obj [("identities", .arr (f.identities.map RecordedPair.value)),
      ("queue_launch_token", .str f.queueLaunchToken)], by
    simp [Value.wellFormed, wellFormedFields, wellFormedItems_pairs]⟩

/-- One turn of the loop of `_recovery_identity_fingerprint`. -/
def recordedPair (e : Mapping) (pidKey identKey : String) : Option RecordedPair :=
  let ident := (e.field identKey).1
  let start := if ident.isDict then strOrEmpty (ident.get "start_token") else ""
  match pidOf (e.field pidKey).1 with
  | some pid => if start = "" then none else some ⟨pidKey, pid, start⟩
  | none => none

/-- `_recovery_identity_fingerprint`. -/
def recoveryIdentityFingerprint (e : Mapping) : Option Fingerprint :=
  let identities := [("queue_claimer_pid", "queue_claimer_identity"),
    ("queue_launcher_pid", "queue_launcher_identity"),
    ("queue_worker_pid", "queue_worker_identity")].filterMap fun keys =>
      recordedPair e keys.1 keys.2
  if identities.isEmpty then none
  else some ⟨strOrEmpty (e.field "queue_launch_token").1, identities⟩

/-- The identity a pair is probed with. -/
def RecordedPair.identity (p : RecordedPair) : Value :=
  .obj [("pid", .int p.pid), ("start_token", .str p.startToken)]

/-- `_recovery_fingerprint_still_dead`. -/
def Host.recoveryFingerprintStillDead (h : Host) (f : Fingerprint) : Bool :=
  f.identities.all fun p => (h.queueClaimIdentityStatus (.int p.pid) p.identity).1 = .dead

/-- **Still dead** is a proof for every pair. -/
theorem Host.provenGone_of_stillDead {f : Fingerprint} (hdead : h.recoveryFingerprintStillDead f = true)
    {p : RecordedPair} (hp : p ∈ f.identities) : h.ProvenGone p.pid p.identity := by
  have hone := List.all_eq_true.mp hdead p hp
  obtain ⟨pid, hpid, hgone⟩ := h.provenGone_of_dead (of_decide_eq_true hone)
  have hsame : pid = p.pid := by
    unfold pidOf Value.orElse at hpid
    split at hpid
    · exact (Option.some.inj (Option.filter_eq_some_iff.mp hpid).1).symm
    · obtain ⟨hzero, hpos⟩ := Option.filter_eq_some_iff.mp hpid
      cases hzero
      simp at hpos
  exact hsame ▸ hgone

/-! ### The probe -/

/-- Times and numbers as the files write them. -/
structure ProbeText where
  /-- `_parse_timestamp_s`. -/
  parseTimestamp : Value → Option Seconds
  isoSeconds : Seconds → String
  /-- A number of seconds, rounded to three digits. -/
  seconds : Seconds → Document

def recoveryProbeSchema : String := "goalflight.recovery-probe.v1"

/-- `RECOVERY_UNRESOLVED_KEEP_REASONS`. -/
def recoveryUnresolvedKeepReasons : List String :=
  ["unlinked_quarantine_deferred", "unlinked_restore_blocked",
    "unlinked_accounting_insufficient"]

/-- `_recovery_reprobe_interval_s`. -/
def recoveryReprobeInterval (age : Seconds) : Seconds :=
  if age < 120 then 0 else if age < 3600 then 60 else if age < 6 * 3600 then 600 else 1800

/-- `_launch_age_timestamp_s`. -/
def launchAgeTimestamp (x : ProbeText) (e : Mapping) : Option Seconds :=
  let own := ["queue_worker_spawned_at", "queue_worker_spawn_intent_at",
    "queue_launch_started_at", "started_at", "created_at", "orphan_first_seen_at"].filterMap
      fun key => x.parseTimestamp (e.field key).1
  let request := ["started_at", "created_at"].filterMap fun key =>
    x.parseTimestamp ((e.field "request").1.get key)
  (own ++ request).max?

/-- `_recovery_probe_may_skip`. -/
def Host.recoveryProbeMaySkip (h : Host) (x : ProbeText) (e : Mapping) : Option String :=
  let probe := (e.field "recovery_probe").1
  let reason := strOrEmpty (probe.get "reason")
  match recoveryIdentityFingerprint e, x.parseTimestamp (probe.get "next_probe_at") with
  | some f, some next =>
    if probe.get "schema" = .str recoveryProbeSchema ∧
        probe.get "disposition" = .str "keep_unresolved" ∧
        reason ∈ recoveryUnresolvedKeepReasons ∧ probe.get "identity" = f.document.1 ∧
        h.now < next ∧ h.recoveryFingerprintStillDead f = true then some reason
    else none
  | _, _ => none

/-- `_recovery_probe_stamp`. -/
def Host.recoveryProbeStamp (h : Host) (x : ProbeText) (e : Mapping) (reason : String) :
    Option Document :=
  match recoveryIdentityFingerprint e with
  | none => none
  | some f =>
    let age := (launchAgeTimestamp x e).elim 0 fun stamp => max 0 (h.now - stamp)
    let interval := recoveryReprobeInterval age
    if reason ∈ recoveryUnresolvedKeepReasons ∧ h.recoveryFingerprintStillDead f = true ∧
        0 < interval then
      some (Mapping.empty.update [("schema", textValue recoveryProbeSchema),
        ("disposition", textValue "keep_unresolved"), ("reason", textValue reason),
        ("identity", f.document), ("probed_at", textValue (x.isoSeconds h.now)),
        ("next_probe_at", textValue (x.isoSeconds (h.now + interval))),
        ("age_s", x.seconds age), ("interval_s", x.seconds interval)]).document
    else none

/-- What `_persist_recovery_probe_stamp` writes. -/
def staged (e : Mapping) (stamp : Document) (now : String) : Mapping :=
  (e.set "recovery_probe" stamp).set "updated_at" (textValue now)

/-! ### The writers of one claim -/

/-- The marks of the launch child. -/
inductive LaunchMark
  | launchStarted (now : String) (pid : ℤ) (identity : Document)
  | workerSpawnIntent (now : String)
  | workerSpawned (now : String) (pid : ℤ) (identity : Document) (group : Option (ℤ × Document))
      (descendants : Document)

/-- The fields a mark sets. -/
def LaunchMark.fields : LaunchMark → List (String × Document)
  | .launchStarted now pid identity =>
    [("queue_launch_started", boolValue true), ("queue_launch_started_at", textValue now),
      ("queue_launcher_pid", ⟨.int pid, wellFormed_int pid⟩), ("queue_launcher_identity", identity),
      ("queue_tail_flock_contract", boolValue true), ("updated_at", textValue now)]
  | .workerSpawnIntent now =>
    [("queue_worker_spawn_intent", boolValue true),
      ("queue_worker_spawn_intent_at", textValue now),
      ("queue_tail_flock_contract", boolValue true), ("updated_at", textValue now)]
  | .workerSpawned now pid identity group descendants =>
    [("queue_worker_pid", ⟨.int pid, wellFormed_int pid⟩), ("queue_worker_spawned_at", textValue now),
      ("queue_worker_identity", identity)] ++
    (group.elim [] fun g => [("queue_worker_pgid", ⟨.int g.1, rfl⟩),
      ("queue_worker_group_leader_identity", g.2)]) ++
    [("queue_worker_identity_snapshot_at", textValue now),
      ("queue_producer_group_contract", boolValue group.isSome),
      ("queue_producer_group_contract_enforced", boolValue false),
      ("queue_producer_group_contract_reason",
        textValue "pgid_observed_no_escape_not_enforced"),
      ("queue_tail_flock_contract", boolValue true),
      ("queue_producer_descendants", descendants), ("updated_at", textValue now)]

/-- What a holder of the queue lock does to the claim it has read. -/
inductive LockedWrite
  /-- `_update_launch_owned_claim`. -/
  | mark (token : String) (m : LaunchMark)
  /-- Another pass parks the claim, or prepares its restore. -/
  | store (fields : List (String × Document))
  /-- Another pass restores, unlinks or quarantines it. -/
  | remove
  | release

/-- The claim after the holder of the lock, who has read `e`. -/
def LockedWrite.result (claim : Option Mapping) (e : Mapping) : LockedWrite → Option Mapping
  | .mark token m =>
    if e.get? "queue_launch_token" = some (.str token) then some (e.update m.fields) else claim
  | .store fields => some (e.update fields)
  | .remove => none
  | .release => claim

/-- The holder of the lock does something to the claim. -/
def LockedWrite.writes : LockedWrite → Bool
  | .release => false
  | _ => true

/-- Where a recovery pass is with the claim. -/
inductive RecoveryPhase
  | idle
  | scanned (entry : Mapping)
  /-- The second read is made, and the probe is for it. -/
  | stamping (entry : Mapping) (stamp : Document)
  /-- `claim.exists()` said yes. -/
  | writing (entry : Mapping) (stamp : Document)

structure ClaimState where
  claim : Option Mapping
  /-- What the holder of the queue lock has read. -/
  queueLock : Option Mapping
  pass : RecoveryPhase

inductive ProbeAction
  /-- The pass reads the claim and asks whether it may skip it. -/
  | scan (h : Host)
  /-- Its transaction comes to an end that leaves nothing pending. -/
  | settled
  /-- Its transaction keeps the claim for a reason: the pass reads the claim again, where it
  is and the read succeeds, and makes the probe. -/
  | pending (h : Host) (reason : String) (unreadable : Bool)
  | claimExists
  /-- `_persist_recovery_probe_stamp`. -/
  | persist (now : String) (fails : Bool)
  /-- Another writer takes the queue lock and reads the claim. -/
  | lock
  | commit (w : LockedWrite)

/-- The second read of the claim. -/
def parkedEntry (claim : Option Mapping) (e : Mapping) (unreadable : Bool) : Mapping :=
  if unreadable then e else claim.getD e

variable (x : ProbeText)

/-- One step of the pass or of a holder of the lock. -/
def ClaimState.step (s : ClaimState) : ProbeAction → ClaimState
  | .scan h => match s.pass, s.claim with
      | .idle, some e =>
        { s with pass := if (h.recoveryProbeMaySkip x e).isSome then .idle else .scanned e }
      | _, _ => s
  | .settled => match s.pass with
      | .scanned _ => { s with pass := .idle }
      | _ => s
  | .pending h reason unreadable => match s.pass with
      | .scanned e =>
        let parked := parkedEntry s.claim e unreadable
        { s with pass := (h.recoveryProbeStamp x parked reason).elim .idle (.stamping parked) }
      | _ => s
  | .claimExists => match s.pass with
      | .stamping e stamp => { s with pass := if s.claim.isSome then .writing e stamp else .idle }
      | _ => s
  | .persist now fails => match s.pass with
      | .writing e stamp =>
        { s with claim := if fails then s.claim else some (staged e stamp now), pass := .idle }
      | _ => s
  | .lock => if s.queueLock.isNone then { s with queueLock := s.claim } else s
  | .commit w => match s.queueLock with
      | some e => { s with claim := w.result s.claim e, queueLock := none }
      | none => s

/-- A claim nobody is at work on. -/
def ClaimState.fresh (claim : Option Mapping) : ClaimState := ⟨claim, none, .idle⟩

/-! ### A pure annotation -/

/-- The claim is as it was, or was there and has every other field as it was. -/
def OnlyAnnotated (before after : Option Mapping) : Prop :=
  after = before ∨ ∃ m m', before = some m ∧ after = some m' ∧
    ∀ key, key ≠ "recovery_probe" → key ≠ "updated_at" → m'.get? key = m.get? key

/-- **A sound skip**: the probe was made for the launch token and the pairs that the claim
records now, and the process of every pair is proven gone. -/
def Host.SoundSkip (h : Host) (e : Mapping) : Prop :=
  ∃ f, recoveryIdentityFingerprint e = some f ∧
    ((e.field "recovery_probe").1.get "identity") = f.document.1 ∧
    f.queueLaunchToken = strOrEmpty (e.field "queue_launch_token").1 ∧
    ∀ p ∈ f.identities, h.ProvenGone p.pid p.identity

/-- What is promised of a step. -/
def ProbeAction.Pure (s : ClaimState) : ProbeAction → Prop
  | .scan h => ∀ e ∈ s.claim, (h.recoveryProbeMaySkip x e).isSome → h.SoundSkip e
  | .persist now fails => OnlyAnnotated s.claim (s.step x (.persist now fails)).claim
  | _ => True

/-- The pass has made its second read and not yet replaced the claim. -/
def RecoveryPhase.holdsEntry : RecoveryPhase → Bool
  | .stamping .. | .writing .. => true
  | _ => false

/-- **The condition.**  The second read does not fail, and nothing is done to the claim
between it and the replacement. -/
def ProbeAction.Undisturbed (s : ClaimState) : ProbeAction → Prop
  | .pending _ _ unreadable => unreadable = false
  | .commit w => w.writes = true → s.pass.holdsEntry = false
  | _ => True

instance (s : ClaimState) : ∀ a : ProbeAction, Decidable (a.Undisturbed s)
  | .pending _ _ unreadable => inferInstanceAs (Decidable (unreadable = false))
  | .commit w => inferInstanceAs (Decidable (w.writes = true → s.pass.holdsEntry = false))
  | .scan _ | .settled | .claimExists | .persist .. | .lock => isTrue trivial

/-! ### Every run -/

theorem Host.soundSkip_of_maySkip (hskip : (h.recoveryProbeMaySkip x e).isSome = true) :
    h.SoundSkip e := by
  unfold Host.recoveryProbeMaySkip at hskip
  dsimp only at hskip
  split at hskip
  · rename_i f next hf hnext
    split at hskip
    · rename_i hfits
      obtain ⟨-, -, -, hidentity, -, hdead⟩ := hfits
      refine ⟨f, hf, hidentity, ?_, fun p hp => Host.provenGone_of_stillDead hdead hp⟩
      unfold recoveryIdentityFingerprint at hf
      dsimp only at hf
      split at hf
      · cases hf
      · cases hf
        rfl
    · cases hskip
  · cases hskip

/-- What a pass with a probe in hand has read is what is there. -/
def ClaimState.Current (s : ClaimState) : Prop :=
  match s.pass with
  | .stamping e _ => s.claim = none ∨ s.claim = some e
  | .writing e _ => s.claim = some e
  | _ => True

theorem ClaimState.Current.of_not_holds {s : ClaimState} (hpass : s.pass.holdsEntry = false) :
    s.Current := by
  unfold ClaimState.Current
  split
  · rename_i hphase
    rw [hphase] at hpass
    cases hpass
  · rename_i hphase
    rw [hphase] at hpass
    cases hpass
  · trivial

theorem get?_staged {stamp : Document} {now key : String} (hprobe : key ≠ "recovery_probe")
    (hupdated : key ≠ "updated_at") : (staged e stamp now).get? key = e.get? key := by
  unfold staged
  rw [Mapping.get?_set_of_ne _ hupdated, Mapping.get?_set_of_ne _ hprobe]

/-- **Step.**  Where the condition is met, the pass has in hand what is there, and its
probe only annotates. -/
theorem ClaimState.Current.step {s : ClaimState} (hs : s.Current) (a : ProbeAction)
    (ha : a.Undisturbed s) : (s.step x a).Current ∧ a.Pure x s := by
  cases a with
  | scan host =>
    refine ⟨?_, fun e _ hskip => Host.soundSkip_of_maySkip x hskip⟩
    unfold ClaimState.step
    dsimp only
    split
    · apply ClaimState.Current.of_not_holds
      dsimp only
      split <;> rfl
    · exact hs
  | settled =>
    refine ⟨?_, trivial⟩
    unfold ClaimState.step
    dsimp only
    split
    · trivial
    · exact hs
  | pending host reason unreadable =>
    refine ⟨?_, trivial⟩
    obtain rfl : unreadable = false := ha
    unfold ClaimState.step
    dsimp only
    split
    · rename_i e hphase
      cases host.recoveryProbeStamp x (parkedEntry s.claim e false) reason with
      | none => trivial
      | some stamp =>
        show s.claim = none ∨ s.claim = some (s.claim.getD e)
        cases s.claim with
        | none => exact .inl rfl
        | some m => exact .inr rfl
    · exact hs
  | claimExists =>
    refine ⟨?_, trivial⟩
    unfold ClaimState.step
    dsimp only
    split
    · rename_i e stamp hphase
      simp only [ClaimState.Current, hphase] at hs
      rcases hs with hnone | hsome
      · rw [hnone]
        trivial
      · rw [hsome]
        exact rfl
    · exact hs
  | persist now fails =>
    show (s.step x (.persist now fails)).Current ∧
      OnlyAnnotated s.claim (s.step x (.persist now fails)).claim
    unfold ClaimState.step
    dsimp only
    split
    · rename_i e stamp hphase
      simp only [ClaimState.Current, hphase] at hs
      refine ⟨trivial, ?_⟩
      cases fails with
      | true => exact .inl rfl
      | false => exact .inr ⟨e, _, hs, rfl, fun key => get?_staged⟩
    · exact ⟨hs, .inl rfl⟩
  | lock =>
    refine ⟨?_, trivial⟩
    unfold ClaimState.step
    dsimp only
    split <;> exact hs
  | commit w =>
    refine ⟨?_, trivial⟩
    unfold ClaimState.step
    dsimp only
    split
    · cases hw : w.writes with
      | true => exact ClaimState.Current.of_not_holds (ha hw)
      | false =>
        cases w with
        | release => exact hs
        | _ => cases hw
    · exact hs

/-- **A pure annotation.**  In every run in which the second read succeeds and nothing is done
to the claim between it and the replacement, the probe brings no claim back and changes no other
field, and the claim is skipped only while every recorded process is proven gone and its launch
token is the one the probe was made for. -/
theorem recovery_probe_pure (claim : Option Mapping) (actions : List ProbeAction)
    (h : Machine.Meets (ClaimState.step x) (fun s a => a.Undisturbed s) (.fresh claim) actions) :
    Machine.Meets (ClaimState.step x) (fun s a => a.Pure x s) (.fresh claim) actions :=
  Machine.meets_of_invariant (fun _ a hs ha => ClaimState.Current.step x hs a ha)
    (ClaimState.Current.of_not_holds rfl) h

/-! ### Two runs -/

/-- The files of the runs: the claim is five minutes old, and its probe is for one more. -/
def wholeSeconds : ProbeText where
  parseTimestamp
    | .int n => if 1000000000 < n then some n else none
    | .str s => if s = "2033-05-18T03:39:20+00:00" then some 2000000360 else none
    | _ => none
  isoSeconds t :=
    if t = 2000000300 then "2033-05-18T03:38:20+00:00" else "2033-05-18T03:39:20+00:00"
  seconds t := if t = 300 then ⟨.float ⟨"300.0".toList, by decide⟩, rfl⟩
    else ⟨.float ⟨"60.0".toList, by decide⟩, rfl⟩

/-- A host on which no process runs. -/
def emptyHost : Host where
  now := 2000000300
  processIdentity _ := .gone

/-- A claim of a drain that is dead. -/
def deadClaim : Mapping :=
  Mapping.empty.update [("dispatch_id", textValue "d"), ("queue_launch_token", textValue "t"),
    ("created_at", ⟨.int 2000000000, rfl⟩), ("queue_claimer_pid", ⟨.int 7, rfl⟩),
    ("queue_claimer_identity", ⟨.obj [("pid", .int 7), ("start_token", .str "s7")], rfl⟩)]

/-- A pass makes a probe for the claim and sees that it exists; another writer, who holds the
lock, does `w` to it. -/
def probeAgainst (w : LockedWrite) : List ProbeAction :=
  [.scan emptyHost, .pending emptyHost "unlinked_restore_blocked" false, .lock, .claimExists,
    .commit w]

/-- The claim before and after the pass writes its probe. -/
def aroundProbe (w : LockedWrite) : Option Mapping × Option Mapping :=
  let s := Machine.run (ClaimState.step wholeSeconds) (.fresh (some deadClaim)) (probeAgainst w)
  (s.claim, (s.step wholeSeconds (.persist "now" false)).claim)

theorem onlyAnnotated_of_meets {w : LockedWrite}
    (h : Machine.Meets (ClaimState.step wholeSeconds) (fun s a => a.Pure wholeSeconds s)
      (.fresh (some deadClaim)) (probeAgainst w ++ [.persist "now" false])) :
    OnlyAnnotated (aroundProbe w).1 (aroundProbe w).2 :=
  ((Machine.meets_append (ClaimState.step wholeSeconds)).mp h).2.1

/-- **The probe undoes what was done to the claim.**  Another pass restores the claim and removes
it, and it is there again; the launch child marks that it started, and the mark is gone. -/
theorem recovery_probe_undoes :
    (¬ ∀ (x : ProbeText) (claim : Option Mapping) (actions : List ProbeAction),
      Machine.Meets (ClaimState.step x) (fun s a => a.Pure x s) (.fresh claim) actions) ∧
    ((aroundProbe .remove).1.isNone ∧ (aroundProbe .remove).2.isSome) ∧
    ((aroundProbe (.mark "t" (.workerSpawnIntent "now"))).1.bind
        (Mapping.get? · "queue_worker_spawn_intent") = some (.bool true) ∧
      (aroundProbe (.mark "t" (.workerSpawnIntent "now"))).2.bind
        (Mapping.get? · "queue_worker_spawn_intent") = none) := by
  have hback : (aroundProbe .remove).1.isNone ∧ (aroundProbe .remove).2.isSome := by
    decide +kernel
  refine ⟨fun hall => ?_, hback, by decide +kernel⟩
  obtain hsame | ⟨m, m', hm, -, -⟩ := onlyAnnotated_of_meets (hall wholeSeconds _ _)
  · rw [hsame] at hback
    simp [Option.isNone_iff_eq_none.mp hback.1] at hback
  · simp [hm] at hback

/-- The same pass with nobody else at work writes its probe, and the next one skips the claim. -/
theorem recovery_probe_pure_undisturbed :
    Machine.Meets (ClaimState.step wholeSeconds) (fun s a => a.Pure wholeSeconds s)
      (.fresh (some deadClaim)) (probeAgainst .release ++ [.persist "now" false,
        .scan emptyHost]) :=
  recovery_probe_pure wholeSeconds _ _ (by decide +kernel)

end GoalFlight.Dispatch
