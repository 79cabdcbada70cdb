import GoalFlight.Capacity.Liveness

/-!
# Capacity: ending leases

Four operations end leases without an operator's word: `prune_state` past the lease's
time, `reclaim_stale_leases` when the machine is full, `release_terminal_dispatch` when a
dispatch is over, and `cmd_release`.  Each takes the whole state under the state lock.
`reclaim_endsOnlyGone` says what is known of the worker of a lease they end.
-/

namespace GoalFlight.Capacity

open Relational

variable {pid : ℤ} {s : CapacityState}

/-! ### Pruning -/

/-- The TTL step of `prune_state` on one lease. -/
def Host.expire (h : Host) (s : CapacityState) (l : CapacityLease) : CapacityLease :=
  if (∃ t ∈ l.expiresAt, t < h.now) ∧ h.leaseIsLocal s l ∧ h.leasePidsDead l then
    { l with state := "expired", endedAt := some (l.endedAt.getD h.now) }
  else l

theorem Host.expire_leaseId (h : Host) (s : CapacityState) (l : CapacityLease) :
    (h.expire s l).leaseId = l.leaseId := by
  unfold Host.expire
  split <;> rfl

/-- The lease is not old history: it has not ended, or less than a day ago. -/
def Host.Recent (h : Host) (l : CapacityLease) : Prop :=
  l.state ∈ terminalLeaseStates → ∃ t ∈ l.releasedAt.or l.endedAt, h.now - t < 86400

instance (h : Host) : DecidablePred h.Recent := fun l => by
  unfold Host.Recent
  infer_instance

/-- `prune_state`. -/
def Host.pruneState (h : Host) (s : CapacityState) : CapacityState :=
  { s with
    leases := (KeyedTable.modify s.leases (h.expire s) (h.expire_leaseId s)).filter h.Recent
    cooldowns := s.cooldowns.filter fun c => ¬ ∃ t ∈ c.until_, t < h.now }

/-! ### Reclaiming -/

/-- What `stale_active_leases` asks of one active lease. -/
def Host.staleLease (h : Host) (s : CapacityState) (l : CapacityLease) : Bool :=
  if ¬ h.leaseIsLocal s l then false
  else if h.retainedLiveScopeHoldsCapacity l then false
  else
    let record := h.dispatchRecordForLease l.dispatchId
    if h.reclaimablePrelaunchLease l record then true
    else if (∃ r ∈ record, r.Terminal) ∧ h.terminalWorkerGone l record then true
    else
      let worker := l.workerView record
      if worker.workerPid ≠ none then
        (h.workerIdentityLiveness worker none).1 = .dead ∧
          ¬ h.attachedWorkerGroupHoldsCapacity worker
      else l.launchState = some "spawn_failed"

/-- `stale_active_leases`. -/
def Host.staleActiveLeases (h : Host) (s : CapacityState) : List CapacityLease :=
  s.activeLeases.filter fun l => h.staleLease s l

/-- `unknown_claimant_leases`. -/
def Host.unknownClaimantLeases (h : Host) (s : CapacityState) : List CapacityLease :=
  s.activeLeases.filter fun l =>
    h.leaseIsLocal s l ∧ h.preAttachClaimantLiveness l = none

/-- The candidates of `reclaim_stale_leases`, with the leases that have no id left out. -/
def Host.reclaimCandidates (h : Host) (s : CapacityState) (includeUnknownClaimant : Bool) :
    List CapacityLease :=
  let stale := h.staleActiveLeases s
  let unknown := if includeUnknownClaimant then
    (h.unknownClaimantLeases s).filter fun l => l ∉ stale else []
  (stale ++ unknown).filter fun l => l.leaseId ≠ ""

/-- What `_reclaim_active_leases` makes of one lease.  A stale lease that never launched
keeps its history. -/
def Host.reclaimLease (h : Host) (s : CapacityState) (state reason : String)
    (includeUnknownClaimant : Bool) (l : CapacityLease) : CapacityLease :=
  if l ∉ h.reclaimCandidates s includeUnknownClaimant then l
  else if l ∈ h.staleActiveLeases s ∧
      h.reclaimablePrelaunchLease l (h.dispatchRecordForLease l.dispatchId) then
    { l with
      state := "released"
      reason := some "orphaned_prelaunch_claimant"
      historyRetained := true
      releasedAt := some h.now }
  else { l with state := state, reason := some reason, releasedAt := some h.now }

theorem Host.reclaimLease_leaseId (h : Host) (s : CapacityState) (state reason : String)
    (includeUnknownClaimant : Bool) (l : CapacityLease) :
    (h.reclaimLease s state reason includeUnknownClaimant l).leaseId = l.leaseId := by
  unfold Host.reclaimLease
  split
  · rfl
  · split <;> rfl

/-- `reclaim_stale_leases`: the ids released, and the state. -/
def Host.reclaimStaleLeases (h : Host) (s : CapacityState) (state reason : String)
    (includeUnknownClaimant : Bool) : List String × CapacityState :=
  ((h.reclaimCandidates s includeUnknownClaimant).map CapacityLease.leaseId,
    { s with
      leases := KeyedTable.modify s.leases (h.reclaimLease s state reason includeUnknownClaimant)
        (h.reclaimLease_leaseId s state reason includeUnknownClaimant) })

/-! ### Releasing -/

/-- What `release_terminal_dispatch` makes of one lease. -/
def Host.releaseTerminalLease (h : Host) (s : CapacityState) (dispatchId state : String)
    (l : CapacityLease) : CapacityLease :=
  if l.dispatchId = some dispatchId ∧ l.Active ∧ h.leaseIsLocal s l ∧
      h.terminalWorkerGone l (h.dispatchRecordForLease (some dispatchId)) then
    { l with state := state, releasedAt := some h.now, reason := some "dispatch_terminal" }
  else l

theorem Host.releaseTerminalLease_leaseId (h : Host) (s : CapacityState)
    (dispatchId state : String) (l : CapacityLease) :
    (h.releaseTerminalLease s dispatchId state l).leaseId = l.leaseId := by
  unfold Host.releaseTerminalLease
  split <;> rfl

/-- `release_terminal_dispatch`. -/
def Host.releaseTerminalDispatch (h : Host) (s : CapacityState) (dispatchId state : String) :
    CapacityState :=
  { s with
    leases := KeyedTable.modify s.leases (h.releaseTerminalLease s dispatchId state)
      (h.releaseTerminalLease_leaseId s dispatchId state) }

/-- The arguments of `cmd_release`, with the pid of the process that runs it. -/
structure ReleaseArgs where
  leaseId : String
  state : String
  reason : Option String
  operatorConfirmed : Bool
  keep : Bool
  callerPid : ℤ

variable {args : ReleaseArgs}

/-- `_release_caller_owns_lease`. -/
def Host.releaseCallerOwnsLease (h : Host) (callerPid : ℤ) (l : CapacityLease)
    (record : Option DispatchRecord) : Bool :=
  match h.processStartToken callerPid with
  | none => false
  | some token =>
    let worker := l.workerView record
    (worker.workerPid = some callerPid ∧
        worker.workerIdentity.map ProcessIdentity.startToken = some token) ∨
      (l.claimantPid = some callerPid ∧
        l.claimantIdentity.map ProcessIdentity.startToken = some token)

/-- `cmd_release` on the lease it names: why it is refused, if it is. -/
def Host.releaseRefusal (h : Host) (s : CapacityState) (args : ReleaseArgs)
    (l : CapacityLease) : Option String :=
  if ¬ h.leaseIsLocal s l then some "remote_lease"
  else if args.operatorConfirmed then
    match (h.workerIdentityLiveness l (h.dispatchRecordForLease l.dispatchId)).1 with
    | .unknown => none
    | .live => some "worker_alive"
    | .dead => some "worker_identity_resolved"
  else
    let record := h.readRecord l.dispatchId
    if ¬ h.releaseCallerOwnsLease args.callerPid l record ∧ ¬ h.terminalWorkerGone l record then
      some "worker_alive"
    else none

/-- What a release that keeps the entry makes of one lease. -/
def Host.releaseLease (h : Host) (args : ReleaseArgs) (l : CapacityLease) : CapacityLease :=
  if l.leaseId = args.leaseId then
    { l with
      state := args.state
      releasedAt := some h.now
      reason := (given args.reason).or l.reason }
  else l

theorem Host.releaseLease_leaseId (h : Host) (args : ReleaseArgs) (l : CapacityLease) :
    (h.releaseLease args l).leaseId = l.leaseId := by
  unfold Host.releaseLease
  split <;> rfl

/-- `cmd_release`: the refusal, if there is one, and the state. -/
def Host.cmdRelease (h : Host) (s : CapacityState) (args : ReleaseArgs) :
    Option String × CapacityState :=
  if args.operatorConfirmed ∧ args.reason.all fun r => r.toList.all Char.isWhitespace then
    (some "operator_reason_required", s)
  else
    match KeyedTable.get? s.leases args.leaseId with
    | none => (some "missing_lease", s)
    | some l =>
      if h.leaseIsLocal s l ∧ l.state ∈ terminalLeaseStates then (none, s)
      else
        match h.releaseRefusal s args l with
        | some refusal => (some refusal, s)
        | none =>
          if args.keep ∨ args.operatorConfirmed then
            (none, { s with
              leases := KeyedTable.modify s.leases (h.releaseLease args)
                (h.releaseLease_leaseId args) })
          else
            (none, { s with leases := s.leases.filter fun l => l.leaseId ≠ args.leaseId })

/-! ### Evidence

What a lease and its record say about the worker, and what the probes say about that. -/

/-- The pids with the identity recorded for each in one place: the lease's roles, and the
record's worker. -/
def recordedIdentities (l : CapacityLease) (record : Option DispatchRecord) :
    List (Option ℤ × Option ProcessIdentity) :=
  l.roles ++ (record.map fun r => (r.workerPid, r.workerIdentity)).toList

/-- The pid now carries another start token than the one recorded for it. -/
def Host.Replaced (h : Host) (l : CapacityLease) (record : Option DispatchRecord) (pid : ℤ) :
    Prop :=
  ∃ e ∈ recordedIdentities l record, e.1 = some pid ∧ ∃ identity ∈ e.2,
    identity.startToken ≠ "" ∧ ∃ current ∈ h.processStartToken pid,
      current ≠ identity.startToken

/-- The worker pids the lease and the record know. -/
def knownPids (l : CapacityLease) (record : Option DispatchRecord) : List ℤ :=
  [l.workerPid, record.bind DispatchRecord.workerPid].reduceOption

/-- The process groups the lease and the record know. -/
def recordedGroups (l : CapacityLease) (record : Option DispatchRecord) : List ℤ :=
  ([l.workerPgid, record.bind DispatchRecord.workerPgid,
    if l.reason = some indeterminateLiveReason then l.accountedLivePgid else
      none].reduceOption).filter (· ≠ 0)

/-- A known worker is gone, and so is every group that is recorded. -/
def Host.WorkerProvenGone (h : Host) (l : CapacityLease) (record : Option DispatchRecord) :
    Prop :=
  (∃ pid ∈ knownPids l record,
    h.probePidLiveness (some pid) = some false ∨ h.Replaced l record pid) ∧
  ∀ g ∈ recordedGroups l record, h.processGroupLiveness (some g) = some false

/-- No worker is known, and there is evidence that none was spawned or none is alive. -/
def Host.NoWorkerLeft (h : Host) (l : CapacityLease) (record : Option DispatchRecord) : Prop :=
  knownPids l record = [] ∧
    (l.launchState = some "spawn_failed" ∨
      (∃ r ∈ record, r.state = "waiting_capacity" ∧
        h.prelaunchClaimantLiveness l record = some .dead) ∨
      ∃ r ∈ record, r.Terminal ∧
        (r.workerStillAlive = some false ∨ (l.isLegacy ∧ r.workerStillAlive ≠ some true)))

/-- The group holds the slot: it is alive, or cannot be probed while the retention window
of the lease is open. -/
def Host.GroupHolds (h : Host) (l : CapacityLease) (pgid : Option ℤ) : Prop :=
  h.processGroupLiveness pgid = some true ∨
    (h.processGroupLiveness pgid = none ∧ h.indeterminateRetentionOpen l)

/-- The worker is gone by the rules of the retention window: its pid is absent and its
group does not hold the slot, or the pid has another start token now; and a group that is
accounted live does not hold the slot either. -/
def Host.WorkerGone (h : Host) (l : CapacityLease) (record : Option DispatchRecord) : Prop :=
  (∃ pid ∈ knownPids l record,
    (h.probePidLiveness (some pid) = some false ∧
      ∀ g ∈ (l.workerView record).workerPgid, g ≠ 0 → ¬ h.GroupHolds l (some g)) ∨
    h.Replaced l record pid) ∧
  (l.reason = some indeterminateLiveReason → ¬ h.GroupHolds l l.accountedLivePgid)

/-- The worker pid and the worker identity that are joined were recorded together. -/
def JoinsOwnIdentity (l : CapacityLease) (record : Option DispatchRecord) : Prop :=
  ∀ pid ∈ (l.workerView record).workerPid, ∀ identity ∈ (l.workerView record).workerIdentity,
    (some pid, some identity) ∈ recordedIdentities l record

section Instances

variable (h : Host) (l : CapacityLease) (record : Option DispatchRecord)

instance (pid : ℤ) : Decidable (h.Replaced l record pid) := by
  unfold Host.Replaced
  infer_instance

instance : Decidable (h.WorkerProvenGone l record) := by
  unfold Host.WorkerProvenGone
  infer_instance

instance : Decidable (h.NoWorkerLeft l record) := by
  unfold Host.NoWorkerLeft
  infer_instance

instance : Decidable (JoinsOwnIdentity l record) := by
  unfold JoinsOwnIdentity
  infer_instance

end Instances

/-! ### What the predicates prove -/

theorem given_eq_some {text : Option String} {t : String} :
    given text = some t ↔ text = some t ∧ t ≠ "" := by
  unfold given
  rw [Option.filter_eq_some_iff]
  simp

variable {l : CapacityLease} {h : Host}

/-- A start token that does not match was recorded with the pid, in one of its roles. -/
theorem Host.pidGenerationMatches_false
    (hmatch : h.pidGenerationMatches (some pid) l = some false) :
    ∃ role ∈ l.roles, role.1 = some pid ∧ ∃ identity ∈ role.2, identity.startToken ≠ "" ∧
      ∃ current ∈ h.processStartToken pid, current ≠ identity.startToken := by
  unfold Host.pidGenerationMatches at hmatch
  rw [Option.bind_some] at hmatch
  obtain ⟨expected, hexpected, hcurrent⟩ := Option.bind_eq_some_iff.mp hmatch
  obtain ⟨identity, hidentity, htoken⟩ := Option.bind_eq_some_iff.mp hexpected
  obtain ⟨htoken, hne⟩ := given_eq_some.mp htoken
  obtain ⟨current, hcur, heq⟩ := Option.map_eq_some_iff.mp hcurrent
  obtain ⟨role, hrole, hfound⟩ := List.exists_of_findSome?_eq_some hidentity
  cases htoken
  split at hfound
  · exact ⟨role, hrole, ‹_›, identity, hfound, hne, current, hcur, of_decide_eq_false heq⟩
  · cases hfound

theorem mem_knownPids_of_view {record : Option DispatchRecord}
    (h : (l.workerView record).workerPid = some pid) : pid ∈ knownPids l record := by
  unfold knownPids List.reduceOption
  cases record with
  | none =>
    have hpid : l.workerPid = some pid := h
    simp [hpid]
  | some r =>
    have hor : l.workerPid.or r.workerPid = some pid := h
    cases hlease : l.workerPid with
    | some p =>
      rw [hlease] at hor
      simp_all
    | none =>
      rw [hlease] at hor
      simp_all

theorem knownPids_eq_nil {record : Option DispatchRecord}
    (h : (l.workerView record).workerPid = none) : knownPids l record = [] := by
  unfold knownPids List.reduceOption
  cases record with
  | none =>
    have hpid : l.workerPid = none := h
    simp [hpid]
  | some r =>
    have hor : l.workerPid.or r.workerPid = none := h
    rw [Option.or_eq_none_iff] at hor
    simp [hor.1, hor.2]

theorem Host.dead_cases
    (hdead : (h.workerIdentityLiveness l none).1 = .dead) :
    ∃ pid, l.workerPid = some pid ∧ (h.probePidLiveness (some pid) = some false ∨
      h.pidGenerationMatches (some pid) l = some false) := by
  unfold Host.workerIdentityLiveness at hdead
  have hview : l.workerView none = l := rfl
  simp only [hview] at hdead
  split at hdead
  · cases hdead
  · rename_i pid hpid
    refine ⟨pid, hpid, ?_⟩
    split at hdead
    · exact .inl ‹_›
    · cases hdead
    · split at hdead
      · exact .inr ‹_›
      · cases hdead
      · cases hdead

theorem CapacityLease.workerView_retention (h : Host) (l : CapacityLease)
    (record : Option DispatchRecord) :
    h.indeterminateRetentionOpen (l.workerView record) = h.indeterminateRetentionOpen l := by
  cases record with
  | none => rfl
  | some r => rfl

theorem CapacityLease.workerView_retained (h : Host) (l : CapacityLease)
    (record : Option DispatchRecord) :
    h.retainedLiveScopeHoldsCapacity (l.workerView record) =
      h.retainedLiveScopeHoldsCapacity l := by
  cases record with
  | none => rfl
  | some r => rfl

theorem Host.replaced_of_mismatch
    {record : Option DispatchRecord} (hown : JoinsOwnIdentity l record)
    (hpid : (l.workerView record).workerPid = some pid)
    (hmatch : h.pidGenerationMatches (some pid) (l.workerView record) = some false) :
    h.Replaced l record pid := by
  obtain ⟨role, hrole, hrolePid, identity, hidentity, hmismatch⟩ :=
    Host.pidGenerationMatches_false hmatch
  suffices hrecorded : (some pid, some identity) ∈ recordedIdentities l record from
    ⟨_, hrecorded, rfl, identity, rfl, hmismatch⟩
  have hsame : (l.workerView record).controllerPid = l.controllerPid ∧
      (l.workerView record).controllerIdentity = l.controllerIdentity ∧
      (l.workerView record).claimantPid = l.claimantPid ∧
      (l.workerView record).claimantIdentity = l.claimantIdentity := by
    cases record with
    | none => exact ⟨rfl, rfl, rfl, rfl⟩
    | some r => exact ⟨rfl, rfl, rfl, rfl⟩
  obtain ⟨hcontroller, hcontroller', hclaimant, hclaimant'⟩ := hsame
  have hpair : role = (some pid, some identity) := Prod.ext hrolePid hidentity
  unfold CapacityLease.roles at hrole
  rcases List.mem_cons.mp hrole with hworker | hrest
  · rw [hworker] at hidentity
    exact hown pid hpid identity hidentity
  · -- The other two roles are the lease's own.
    refine List.mem_append_left _ (List.mem_cons_of_mem _ ?_)
    rw [hcontroller, hcontroller', hclaimant, hclaimant'] at hrest
    rw [← hpair]
    exact hrest

theorem Host.not_groupHolds_of_absent {g : ℤ}
    (hpid : l.workerPid = some pid) (habsent : h.probePidLiveness (some pid) = some false)
    (hgroup : h.attachedWorkerGroupHoldsCapacity l = false) (hg : l.workerPgid = some g)
    (hne : g ≠ 0) : ¬ h.GroupHolds l (some g) := by
  unfold Host.attachedWorkerGroupHoldsCapacity at hgroup
  rw [hg, hpid, habsent] at hgroup
  simp only [Option.some.injEq, hne, reduceCtorEq, or_self, if_false, false_and,
    Bool.false_eq_true] at hgroup
  rintro (halive | ⟨hunknown, hopen⟩)
  · rw [halive] at hgroup
    cases hgroup
  · rw [hunknown] at hgroup
    simp only [hopen, Bool.true_eq_false] at hgroup

theorem Host.not_groupHolds_of_retained
    (hretained : h.retainedLiveScopeHoldsCapacity l = false)
    (hreason : l.reason = some indeterminateLiveReason) :
    ¬ h.GroupHolds l l.accountedLivePgid := by
  unfold Host.retainedLiveScopeHoldsCapacity at hretained
  rw [if_neg (not_not_intro hreason)] at hretained
  rintro (halive | ⟨hunknown, hopen⟩)
  · rw [halive] at hretained
    cases hretained
  · rw [hunknown] at hretained
    rw [hopen] at hretained
    cases hretained

theorem Host.workerGone_of_dead
    {record : Option DispatchRecord} (hown : JoinsOwnIdentity l record)
    (hdead : (h.workerIdentityLiveness (l.workerView record) none).1 = .dead)
    (hgroup : h.attachedWorkerGroupHoldsCapacity (l.workerView record) = false)
    (hretained : h.retainedLiveScopeHoldsCapacity l = false) : h.WorkerGone l record := by
  obtain ⟨pid, hpid, hcase⟩ := Host.dead_cases hdead
  refine ⟨⟨pid, mem_knownPids_of_view hpid, ?_⟩, Host.not_groupHolds_of_retained hretained⟩
  rcases hcase with habsent | hmismatch
  · refine .inl ⟨habsent, fun g hg hne => ?_⟩
    have hnot := Host.not_groupHolds_of_absent hpid habsent hgroup hg hne
    unfold Host.GroupHolds at hnot ⊢
    rwa [CapacityLease.workerView_retention] at hnot
  · exact .inr (Host.replaced_of_mismatch hown hpid hmismatch)

theorem Host.leasePidsDead_gone (hdead : h.leasePidsDead l = true) :
    h.WorkerGone l none := by
  unfold Host.leasePidsDead at hdead
  split at hdead
  · cases hdead
  · split at hdead
    · cases hdead
    · rename_i hretained _
      obtain ⟨hverdict, hgroup⟩ := of_decide_eq_true hdead
      refine Host.workerGone_of_dead ?_ hverdict (Bool.eq_false_iff.mpr hgroup)
        (Bool.eq_false_iff.mpr hretained)
      intro pid hpid identity hidentity
      have hpair : (some pid, some identity) = (l.workerPid, l.workerIdentity) :=
        Prod.ext hpid.symm hidentity.symm
      rw [hpair]
      exact List.mem_append_left _ List.mem_cons_self

theorem Host.terminalWorkerGone_gone
    {record : Option DispatchRecord} (hown : JoinsOwnIdentity l record)
    (hgone : h.terminalWorkerGone l record = true) :
    h.WorkerGone l record ∨ h.NoWorkerLeft l record := by
  unfold Host.terminalWorkerGone at hgone
  simp only at hgone
  split at hgone
  · rename_i hnone
    refine .inr ⟨knownPids_eq_nil hnone, ?_⟩
    split at hgone
    · exact .inl ‹_›
    · refine .inr (.inr ?_)
      split at hgone
      · cases hgone
      · rename_i r
        split at hgone
        · cases hgone
        · rename_i hterminal
          refine ⟨r, rfl, not_not.mp hterminal, ?_⟩
          split at hgone
          · exact .inr ⟨‹_›, of_decide_eq_true hgone⟩
          · split at hgone
            · cases hgone
            · exact .inl (not_not.mp ‹_›)
  · split at hgone
    · cases hgone
    · rename_i hdead
      have hnot := of_decide_eq_true hgone
      rw [not_or, CapacityLease.workerView_retained] at hnot
      exact .inl (Host.workerGone_of_dead hown (not_not.mp hdead)
        (Bool.eq_false_iff.mpr hnot.1) (Bool.eq_false_iff.mpr hnot.2))

theorem Host.reclaimablePrelaunchLease_gone
    {record : Option DispatchRecord} (hgone : h.reclaimablePrelaunchLease l record = true) :
    h.NoWorkerLeft l record := by
  unfold Host.reclaimablePrelaunchLease at hgone
  split at hgone
  · cases hgone
  · rename_i hlease
    split at hgone
    · cases hgone
    · rename_i r
      split at hgone
      · cases hgone
      · rename_i hrecord
        rw [not_or, not_not, not_not] at hlease hrecord
        refine ⟨knownPids_eq_nil ?_, .inr (.inl ⟨r, rfl, hrecord.1, of_decide_eq_true hgone⟩)⟩
        show l.workerPid.or r.workerPid = none
        rw [hlease.2, hrecord.2]
        rfl

theorem Host.staleLease_gone
    (hown : JoinsOwnIdentity l (h.dispatchRecordForLease l.dispatchId))
    (hstale : h.staleLease s l = true) :
    h.WorkerGone l (h.dispatchRecordForLease l.dispatchId) ∨
      h.NoWorkerLeft l (h.dispatchRecordForLease l.dispatchId) := by
  unfold Host.staleLease at hstale
  split at hstale
  · cases hstale
  split at hstale
  · cases hstale
  rename_i hretained
  simp only at hstale
  generalize h.dispatchRecordForLease l.dispatchId = record at *
  split at hstale
  · exact .inr (Host.reclaimablePrelaunchLease_gone ‹_›)
  split at hstale
  · rename_i hterminal
    exact Host.terminalWorkerGone_gone hown hterminal.2
  split at hstale
  · obtain ⟨hdead, hgroup⟩ := of_decide_eq_true hstale
    exact .inl (Host.workerGone_of_dead hown hdead (Bool.eq_false_iff.mpr hgroup)
      (Bool.eq_false_iff.mpr hretained))
  · rename_i hnone
    exact .inr ⟨knownPids_eq_nil (not_not.mp hnone), .inl (of_decide_eq_true hstale)⟩

/-! ### The operations that end leases -/

/-- An operation that can end leases. -/
inductive Ending
  | prune
  | reclaimStale (state reason : String)
  | releaseTerminal (dispatchId state : String)
  | release (args : ReleaseArgs)

/-- The state it leaves. -/
def Ending.run (h : Host) (s : CapacityState) : Ending → CapacityState
  | .prune => h.pruneState s
  | .reclaimStale state reason => (h.reclaimStaleLeases s state reason false).2
  | .releaseTerminal dispatchId state => h.releaseTerminalDispatch s dispatchId state
  | .release args => (h.cmdRelease s args).2

/-- The record it joins to a lease.  `prune_state` reads the lease only, and `cmd_release`
no status file. -/
def Ending.record (h : Host) (l : CapacityLease) : Ending → Option DispatchRecord
  | .prune => none
  | .reclaimStale .. => h.dispatchRecordForLease l.dispatchId
  | .releaseTerminal dispatchId _ => h.dispatchRecordForLease (some dispatchId)
  | .release _ => h.readRecord l.dispatchId

/-- Neither an operator nor the lease's own worker or claimant asks for it. -/
def Ending.Automatic (h : Host) (l : CapacityLease) : Ending → Prop
  | .release args => args.operatorConfirmed = false ∧
      h.releaseCallerOwnsLease args.callerPid l (h.readRecord l.dispatchId) = false
  | _ => True

/-- The lease is active in one state and not in the next. -/
def Ends (s s' : CapacityState) (l : CapacityLease) : Prop :=
  (l ∈ s.leases ∧ l.Active) ∧ ∀ l' ∈ s'.leases, l'.leaseId = l.leaseId → ¬ l'.Active

instance (s s' : CapacityState) (l : CapacityLease) : Decidable (Ends s s' l) := by
  unfold Ends
  infer_instance

theorem CapacityLease.Active.recent (hactive : l.Active) :
    h.Recent l := by
  intro hterminal
  rw [hactive] at hterminal
  exact absurd hterminal (by decide)

theorem pruneState_gone (hends : Ends s (h.pruneState s) l) :
    h.WorkerGone l none := by
  obtain ⟨⟨hl, hactive⟩, hgone⟩ := hends
  by_cases hexpires : (∃ t ∈ l.expiresAt, t < h.now) ∧ h.leaseIsLocal s l ∧ h.leasePidsDead l
  · exact Host.leasePidsDead_gone hexpires.2.2
  · -- The lease is still there as it was.
    have hsame : h.expire s l = l := if_neg hexpires
    have hmem : l ∈ (h.pruneState s).leases := Table.mem_filter.mpr
      ⟨KeyedTable.mem_modify_of_eq (h.expire_leaseId s) hl hsame, hactive.recent⟩
    exact absurd hactive (hgone l hmem rfl)

theorem reclaimStaleLeases_gone {state reason : String}
    (hown : JoinsOwnIdentity l (h.dispatchRecordForLease l.dispatchId))
    (hends : Ends s (h.reclaimStaleLeases s state reason false).2 l) :
    h.WorkerGone l (h.dispatchRecordForLease l.dispatchId) ∨
      h.NoWorkerLeft l (h.dispatchRecordForLease l.dispatchId) := by
  obtain ⟨⟨hl, hactive⟩, hgone⟩ := hends
  by_cases hstale : l ∈ h.staleActiveLeases s
  · exact Host.staleLease_gone hown (List.mem_filter.mp hstale).2
  · have hmem : l ∈ (h.reclaimStaleLeases s state reason false).2.leases := by
      refine KeyedTable.mem_modify_of_eq (h.reclaimLease_leaseId s state reason false) hl
        (if_pos fun hcandidate => hstale ?_)
      have happended := (List.mem_filter.mp hcandidate).1
      simp only [Bool.false_eq_true, if_false, List.append_nil] at happended
      exact happended
    exact absurd hactive (hgone l hmem rfl)

theorem releaseTerminalDispatch_gone {dispatchId state : String}
    (hown : JoinsOwnIdentity l (h.dispatchRecordForLease (some dispatchId)))
    (hends : Ends s (h.releaseTerminalDispatch s dispatchId state) l) :
    h.WorkerGone l (h.dispatchRecordForLease (some dispatchId)) ∨
      h.NoWorkerLeft l (h.dispatchRecordForLease (some dispatchId)) := by
  obtain ⟨⟨hl, hactive⟩, hgone⟩ := hends
  by_cases hreleases : l.dispatchId = some dispatchId ∧ l.Active ∧ h.leaseIsLocal s l ∧
      h.terminalWorkerGone l (h.dispatchRecordForLease (some dispatchId))
  · exact Host.terminalWorkerGone_gone hown hreleases.2.2.2
  · have hmem : l ∈ (h.releaseTerminalDispatch s dispatchId state).leases :=
      KeyedTable.mem_modify_of_eq (h.releaseTerminalLease_leaseId s dispatchId state) hl
        (if_neg hreleases)
    exact absurd hactive (hgone l hmem rfl)

theorem Host.mem_cmdRelease_of_ne (hl : l ∈ s.leases)
    (hne : l.leaseId ≠ args.leaseId) :
    l ∈ (h.cmdRelease s args).2.leases := by
  unfold Host.cmdRelease
  split
  · exact hl
  · split
    · exact hl
    · split
      · exact hl
      · split
        · exact hl
        · split
          · exact KeyedTable.mem_modify_of_eq (h.releaseLease_leaseId args) hl (if_neg hne)
          · exact Table.mem_filter.mpr ⟨hl, hne⟩

theorem Host.cmdRelease_of_refused {refusal : String}
    (hget : KeyedTable.get? s.leases args.leaseId = some l)
    (hrefused : h.releaseRefusal s args l = some refusal) : (h.cmdRelease s args).2 = s := by
  unfold Host.cmdRelease
  rw [hget]
  simp only [hrefused]
  split
  · rfl
  · split
    · rfl
    · rfl

theorem cmdRelease_gone
    (hown : JoinsOwnIdentity l (h.readRecord l.dispatchId))
    (hauto : Ending.Automatic h l (.release args)) (hends : Ends s (h.cmdRelease s args).2 l) :
    h.WorkerGone l (h.readRecord l.dispatchId) ∨
      h.NoWorkerLeft l (h.readRecord l.dispatchId) := by
  obtain ⟨⟨hl, hactive⟩, hgone⟩ := hends
  obtain ⟨hoperator, hcaller⟩ := hauto
  have hkept : (h.cmdRelease s args).2 ≠ s := fun hsame =>
    absurd hactive (hgone l (by rw [hsame]; exact hl) rfl)
  by_cases hid : l.leaseId = args.leaseId
  · have hget : KeyedTable.get? s.leases args.leaseId = some l :=
      KeyedTable.get?_eq_some.mpr ⟨hl, hid⟩
    have hrefusal : h.releaseRefusal s args l = none := by
      by_contra hrefused
      obtain ⟨refusal, hrefusal⟩ := Option.ne_none_iff_exists'.mp hrefused
      exact hkept (Host.cmdRelease_of_refused hget hrefusal)
    unfold Host.releaseRefusal at hrefusal
    simp only [hoperator, hcaller] at hrefusal
    split at hrefusal
    · cases hrefusal
    · simp only [Bool.false_eq_true, if_false, not_false_eq_true, true_and] at hrefusal
      split at hrefusal
      · cases hrefusal
      · rename_i hgone
        exact Host.terminalWorkerGone_gone hown (not_not.mp hgone)
  · -- The call names another lease.
    exact absurd hactive (hgone l (Host.mem_cmdRelease_of_ne hl hid) rfl)

/-- **Automatic endings end what is gone.**  A lease that pruning, reclaim, the terminal
hook or a release by a stranger ends has either a worker that is gone by the rules of the
retention window, or no known worker and evidence that there is none. -/
theorem reclaim_endsOnlyGone {s : CapacityState} {op : Ending}
    (hends : Ends s (op.run h s) l) (hauto : op.Automatic h l)
    (hown : JoinsOwnIdentity l (op.record h l)) :
    h.WorkerGone l (op.record h l) ∨ h.NoWorkerLeft l (op.record h l) := by
  cases op with
  | prune => exact .inl (pruneState_gone hends)
  | reclaimStale state reason => exact reclaimStaleLeases_gone hown hends
  | releaseTerminal dispatchId state => exact releaseTerminalDispatch_gone hown hends
  | release args => exact cmdRelease_gone hown hauto hends

/-- Reclaim ends the lease of a worker whose pid is absent and whose group is gone. -/
theorem reclaim_endsOnlyGone_absent :
    let host : Host := ⟨100, "m", fun _ => some false, fun _ => none, fun _ => some false,
      fun _ => none, fun _ => none⟩
    let lease : CapacityLease := {
      leaseId := "l1", state := "active", workerPid := some 7, workerPgid := some 7
      workerIdentity := some ⟨some 7, "t7"⟩, startedAt := some 0 }
    let s : CapacityState := ⟨some "m", ⟨[lease], by simp⟩, .empty⟩
    let reclaim : Ending := .reclaimStale "expired" "capacity_backstop"
    Ends s (reclaim.run host s) lease ∧
      (host.WorkerGone lease none ∨ host.NoWorkerLeft lease none) := by
  intro host lease s reclaim
  have hends : Ends s (reclaim.run host s) lease := by decide +kernel
  have hown : JoinsOwnIdentity lease (reclaim.record host lease) := by decide +kernel
  exact ⟨hends, reclaim_endsOnlyGone hends trivial hown⟩

/-- Two leases that reclaim ends although their groups are not gone: the group of an absent
worker cannot be probed and the retention window has elapsed; the group is alive and its
leader's pid carries another start token. -/
theorem reclaim_ends_unproven :
    let lease : CapacityLease := {
      leaseId := "l1", state := "active", workerPid := some 7, workerPgid := some 7
      workerIdentity := some ⟨some 7, "t7"⟩, startedAt := some 0 }
    let s : CapacityState := ⟨some "m", ⟨[lease], by simp⟩, .empty⟩
    let unprobed : Host := ⟨7200, "m", fun _ => some false, fun _ => none, fun _ => none,
      fun _ => none, fun _ => none⟩
    let replaced : Host := ⟨100, "m", fun _ => some true, fun _ => some "t8", fun _ => some true,
      fun _ => none, fun _ => none⟩
    let reclaim : Ending := .reclaimStale "expired" "capacity_backstop"
    (Ends s (reclaim.run unprobed s) lease ∧
      ¬ (unprobed.WorkerProvenGone lease none ∨ unprobed.NoWorkerLeft lease none)) ∧
    (Ends s (reclaim.run replaced s) lease ∧
      ¬ (replaced.WorkerProvenGone lease none ∨ replaced.NoWorkerLeft lease none)) := by
  decide +kernel

end GoalFlight.Capacity
