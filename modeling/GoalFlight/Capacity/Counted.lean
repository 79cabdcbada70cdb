import GoalFlight.Capacity.Launch

/-!
# Capacity: a running worker is counted

The lease of a live worker stays active over any run of calls that neither take it over
nor mistake its worker for another process (`Holding.run`).  What an attach or a detach
writes into is active after the call exactly when it was before, so the one further
condition is that the launcher's lease has not ended in the meantime.
-/

namespace GoalFlight.Capacity

open Relational

variable {u : LeaseUpdate} {l : CapacityLease} {named : Option String}

/-- An active lease has the id and the worker's pid. -/
def Holding (s : CapacityState) (leaseId : String) (w : RunningWorker) : Prop :=
  ∃ l ∈ s.leases, l.leaseId = leaseId ∧ l.Active ∧ l.workerPid = some w.pid

variable {s : CapacityState} {w : RunningWorker} {leaseId : String}

theorem Holding.counts
    (hheld : Holding s leaseId w) : s.Counts leaseId := by
  obtain ⟨l, hl, hid, hactive, -⟩ := hheld
  exact ⟨l, CapacityState.mem_activeLeases.mpr ⟨hl, hactive⟩, hid⟩

/-! ### One write -/

theorem CapacityState.write_of_get? {id : String} (u : LeaseUpdate)
    (hnamed : given named = some id) (hget : KeyedTable.get? s.leases id = some l) :
    (s.write named u).2.leases.rows =
      s.leases.rows.map fun r => if r.leaseId = id then u.update r else r := by
  unfold CapacityState.write
  rw [hnamed]
  simp only [hget]
  rfl

theorem CapacityState.mem_write_of_ne (hl : l ∈ s.leases)
    (hne : given named ≠ some l.leaseId) : l ∈ (s.write named u).2.leases := by
  unfold CapacityState.write
  split
  · exact hl
  · rename_i id hid
    split
    · exact hl
    · refine List.mem_map.mpr ⟨l, hl, if_neg fun heq => hne ?_⟩
      rw [hid, heq]

theorem CapacityState.update_mem_write (u : LeaseUpdate)
    (hl : l ∈ s.leases) (hnamed : given named = some l.leaseId) :
    u.update l ∈ (s.write named u).2.leases := by
  have hget : KeyedTable.get? s.leases l.leaseId = some l := KeyedTable.get?_eq_some.mpr ⟨hl, rfl⟩
  rw [Table.mem_def, CapacityState.write_of_get? u hnamed hget]
  exact List.mem_map.mpr ⟨l, hl, if_pos rfl⟩

theorem CapacityState.exists_of_mem_write {r : CapacityLease}
    (hr : r ∈ (s.write named u).2.leases) :
    ∃ l ∈ s.leases, r.leaseId = l.leaseId ∧
      (r = l ∨ (given named = some l.leaseId ∧ r = u.update l)) := by
  unfold CapacityState.write at hr
  split at hr
  · exact ⟨r, hr, rfl, .inl rfl⟩
  · rename_i id hid
    split at hr
    · exact ⟨r, hr, rfl, .inl rfl⟩
    · obtain ⟨l, hl, hlr⟩ := Table.exists_of_mem hr rfl
      split at hlr
      · rename_i heq
        subst heq hlr
        exact ⟨l, hl, u.leaseId_update l, .inr ⟨hid, rfl⟩⟩
      · subst hlr
        exact ⟨l, hl, rfl, .inl rfl⟩

theorem CapacityState.counts_write_iff
    (hu : ∀ l, (u.update l).state = l.state) (leaseId : String) :
    (s.write named u).2.Counts leaseId ↔ s.Counts leaseId := by
  constructor
  · rintro ⟨r, hr, rfl⟩
    obtain ⟨hmem, hactive⟩ := CapacityState.mem_activeLeases.mp hr
    obtain ⟨l, hl, hid, heq | ⟨-, heq⟩⟩ := CapacityState.exists_of_mem_write hmem
    · exact ⟨l, CapacityState.mem_activeLeases.mpr ⟨hl, heq ▸ hactive⟩, hid.symm⟩
    · have hstate : l.state = "active" := by rw [← hu l, ← heq]; exact hactive
      exact ⟨l, CapacityState.mem_activeLeases.mpr ⟨hl, hstate⟩, hid.symm⟩
  · rintro ⟨l, hl, rfl⟩
    obtain ⟨hmem, hactive⟩ := CapacityState.mem_activeLeases.mp hl
    by_cases hnamed : given named = some l.leaseId
    · have hstate : (u.update l).state = "active" := (hu l).trans hactive
      exact ⟨u.update l, CapacityState.mem_activeLeases.mpr
        ⟨CapacityState.update_mem_write u hmem hnamed, hstate⟩, u.leaseId_update l⟩
    · exact ⟨l, CapacityState.mem_activeLeases.mpr
        ⟨CapacityState.mem_write_of_ne hmem hnamed, hactive⟩, rfl⟩

theorem Holding.write
    (hheld : Holding s leaseId w)
    (hu : ∀ l, l.Active → l.workerPid = some w.pid → given named = some leaseId →
      (u.update l).Active ∧ (u.update l).workerPid = some w.pid) :
    Holding (s.write named u).2 leaseId w := by
  obtain ⟨l, hl, rfl, hactive, hpid⟩ := hheld
  by_cases hnamed : given named = some l.leaseId
  · obtain ⟨hactive', hpid'⟩ := hu l hactive hpid hnamed
    exact ⟨u.update l, CapacityState.update_mem_write u hl hnamed, u.leaseId_update l, hactive',
      hpid'⟩
  · exact ⟨l, CapacityState.mem_write_of_ne hl hnamed, rfl, hactive, hpid⟩

/-! ### One step -/

section Step

variable {h : Host} {s : CapacityState} {leaseId : String} {w : RunningWorker}

section

variable (hheld : Holding s leaseId w)
include hheld

theorem Holding.markSpawning (named : Option String) :
    Holding (s.write named markLeaseSpawning).2 leaseId w := by
  refine hheld.write fun l hactive hpid _ => ?_
  show (if _ then _ else l).Active ∧ (if _ then _ else l).workerPid = _
  split
  · exact ⟨hactive, hpid⟩
  · exact ⟨hactive, hpid⟩

theorem Holding.markSpawnFailed (named : Option String) :
    Holding (s.write named markLeaseSpawnFailed).2 leaseId w := by
  refine hheld.write fun l hactive hpid _ => ?_
  have hsame : markLeaseSpawnFailed.update l = l := if_neg fun hcond => by
    rw [hpid] at hcond
    cases hcond.2.1
  rw [hsame]
  exact ⟨hactive, hpid⟩

theorem Holding.rebindAccount (named : Option String) (account : String) :
    Holding (s.write named (rebindLeaseAccount account)).2 leaseId w := by
  refine hheld.write fun l hactive hpid _ => ?_
  have hsame : (rebindLeaseAccount account).update l = l := if_neg fun hcond => by
    rw [hpid] at hcond
    cases hcond.2.1
  rw [hsame]
  exact ⟨hactive, hpid⟩

theorem Holding.attachWorker {pid : ℤ} {pgid : Option ℤ}
    (hsame : given named = some leaseId → pid = w.pid) :
    Holding (s.write named (h.recordAttachedWorker pid pgid)).2 leaseId w := by
  refine hheld.write fun l hactive _ hnamed => ⟨hactive, ?_⟩
  show some pid = some w.pid
  rw [hsame hnamed]

theorem Holding.detachToWorker {pid : ℤ} (hsame : given named = some leaseId → pid = w.pid) :
    Holding (s.write named (h.detachLease pid)).2 leaseId w := by
  refine hheld.write fun l hactive _ hnamed => ⟨hactive, ?_⟩
  show some pid = some w.pid
  rw [hsame hnamed]

theorem Holding.prune (hsees : h.Sees w) (hspares : Spares leaseId w h s .prune) :
    Holding (h.pruneState s) leaseId w := by
  obtain ⟨l, hl, hid, hactive, hpid⟩ := hheld
  have hexpires := hsees.not_expires hpid (hspares l hl hid).2 s
  have hkept := Host.mem_activeLeases_pruneState.mpr ⟨hl, hactive, hexpires⟩
  exact ⟨l, (CapacityState.mem_activeLeases.mp hkept).1, hid, hactive, hpid⟩

theorem Holding.reclaimStale (hsees : h.Sees w) {state reason : String}
    {includeUnknownClaimant : Bool}
    (hspares : Spares leaseId w h s (.reclaimStale state reason includeUnknownClaimant)) :
    Holding (h.reclaimStaleLeases s state reason includeUnknownClaimant).2 leaseId w := by
  obtain ⟨l, hl, hid, hactive, hpid⟩ := hheld
  have hnot := hsees.not_reclaimed hpid (hspares l hl hid).2 s includeUnknownClaimant
  exact ⟨l, KeyedTable.mem_modify_of_eq
    (h.reclaimLease_leaseId s state reason includeUnknownClaimant) hl (if_pos hnot), hid,
    hactive, hpid⟩

theorem Holding.releaseTerminal (hsees : h.Sees w) {dispatchId state : String}
    (hspares : Spares leaseId w h s (.releaseTerminal dispatchId state)) :
    Holding (h.releaseTerminalDispatch s dispatchId state) leaseId w := by
  obtain ⟨l, hl, hid, hactive, hpid⟩ := hheld
  have hsame : h.releaseTerminalLease s dispatchId state l = l := if_neg fun hcond => by
    have hgone := hsees.not_terminalWorkerGone hpid fun hmistake =>
      (hspares l hl hid).2 ⟨hcond.1, hmistake⟩
    rw [hgone] at hcond
    cases hcond.2.2.2
  exact ⟨l, KeyedTable.mem_modify_of_eq (h.releaseTerminalLease_leaseId s dispatchId state) hl
    hsame, hid, hactive, hpid⟩

theorem Holding.release {args : ReleaseArgs}
    (hlive : Undisturbed leaseId w h s (.release args))
    (hspares : Spares leaseId w h s (.release args)) :
    Holding (h.cmdRelease s args).2 leaseId w := by
  obtain ⟨l, hl, hid, hactive, hpid⟩ := hheld
  by_cases hnamed : args.leaseId = l.leaseId
  · have hget : KeyedTable.get? s.leases args.leaseId = some l :=
      KeyedTable.get?_eq_some.mpr ⟨hl, hnamed.symm⟩
    have hstranger : ¬ (args.operatorConfirmed = true ∨
        h.releaseCallerOwnsLease args.callerPid l (h.readRecord l.dispatchId) = true) :=
      fun hrelease => hlive.2 l hl hid ⟨hnamed, hrelease⟩
    rw [not_or, Bool.not_eq_true, Bool.not_eq_true] at hstranger
    have hgone := hlive.1.not_terminalWorkerGone hpid fun hmistake =>
      (hspares l hl hid).2 ⟨hnamed, hmistake⟩
    have hrefused : ∃ refusal, h.releaseRefusal s args l = some refusal := by
      unfold Host.releaseRefusal
      split
      · exact ⟨_, rfl⟩
      · simp only [hstranger.1, hstranger.2, hgone, Bool.false_eq_true, not_false_eq_true,
          and_self, if_false, if_true]
        exact ⟨_, rfl⟩
    obtain ⟨refusal, hrefused⟩ := hrefused
    rw [Host.cmdRelease_of_refused hget hrefused]
    exact ⟨l, hl, hid, hactive, hpid⟩
  · exact ⟨l, Host.mem_cmdRelease_of_ne hl (Ne.symm hnamed), hid, hactive, hpid⟩

theorem Holding.acquire (hsees : h.Sees w) {i : Installation} {pressure : List PressureEntry}
    {args : AcquireArgs} {lane : Lane}
    (hspares : Spares leaseId w h s (.acquire i pressure args lane)) :
    Holding (h.cmdAcquire i pressure args lane s).2 leaseId w := by
  obtain ⟨l, hl, hid, hactive, hpid⟩ := hheld
  obtain ⟨htakes, hreads⟩ := hspares l hl hid
  by_cases hadmits : h.Admits i pressure args lane s
  · rw [Host.cmdAcquire_of_admits hadmits]
    have hsurvives : l ∈ (h.pruned i pressure args lane s).activeLeases :=
      Host.mem_activeLeases_pruned.mpr ⟨hl, hactive,
        hsees.not_expires hpid (fun hmistake => hreads (.inl hmistake)) s,
        .inr (.inl (hsees.not_stale hpid (fun hmistake => hreads (.inr hmistake)) s))⟩
    have hne : l.leaseId ≠ (h.grantedLease args (demand i pressure args)).leaseId :=
      fun heq => htakes ⟨heq.symm, hadmits⟩
    have hkept := (CapacityState.mem_activeLeases_put
      (l := h.grantedLease args (demand i pressure args)) rfl).mpr (.inl ⟨hsurvives, hne⟩)
    exact ⟨l, (CapacityState.mem_activeLeases.mp hkept).1, hid, hactive, hpid⟩
  · rw [(Host.cmdAcquire_refused hadmits).1]
    exact ⟨l, hl, hid, hactive, hpid⟩

theorem Holding.step {call : LeaseCall} (hlive : Undisturbed leaseId w h s call)
    (hspares : Spares leaseId w h s call) :
    Holding (call.run h s) leaseId w := by
  have hrow := hheld
  obtain ⟨l, hl, hid, -⟩ := hrow
  cases call with
  | acquire i pressure args lane => exact hheld.acquire hlive.1 hspares
  | markSpawning named => exact hheld.markSpawning named
  | markSpawnFailed named => exact hheld.markSpawnFailed named
  | attachWorker named pid pgid =>
    refine hheld.attachWorker fun hnamed => ?_
    by_contra hne
    exact (hspares l hl hid).1 ⟨by rw [hnamed, hid], hne⟩
  | detachToWorker named pid =>
    simp only [LeaseCall.run]
    split
    · exact hheld
    · rename_i hzero
      refine hheld.detachToWorker fun hnamed => ?_
      by_contra hne
      exact (hspares l hl hid).1 ⟨by rw [hnamed, hid], hzero, hne⟩
  | rebindAccount named account =>
    simp only [LeaseCall.run]
    split
    · exact hheld
    · exact hheld.rebindAccount named _
  | prune => exact hheld.prune hlive.1 hspares
  | reclaimStale state reason includeUnknownClaimant => exact hheld.reclaimStale hlive.1 hspares
  | releaseTerminal dispatchId state => exact hheld.releaseTerminal hlive.1 hspares
  | release args => exact hheld.release hlive hspares

end

end Step

/-! ### Runs -/

/-- **The lease of a live worker outlasts a run that spares it.** -/
theorem Holding.run
    (hheld : Holding s leaseId w) {steps : List (Host × LeaseCall)}
    (hlive : Along (Undisturbed leaseId w) s steps) (hspares : Along (Spares leaseId w) s steps) :
    Holding (runCalls s steps) leaseId w := by
  induction steps generalizing s with
  | nil => exact hheld
  | cons step rest ih => exact ih (hheld.step hlive.1 hspares.1) hlive.2 hspares.2

theorem LeaseCall.Writes.counts_iff {h : Host} {call : LeaseCall} (hwrites : call.Writes s leaseId w) :
    (call.run h s).Counts leaseId ↔ s.Counts leaseId := by
  cases call with
  | attachWorker named pid pgid =>
    exact CapacityState.counts_write_iff (fun _ => rfl) leaseId
  | detachToWorker named pid =>
    show (if pid = 0 then s else _).Counts leaseId ↔ s.Counts leaseId
    split
    · exact Iff.rfl
    · exact CapacityState.counts_write_iff (fun _ => rfl) leaseId
  | _ => exact absurd hwrites id

theorem LeaseCall.Writes.holding {h : Host} {call : LeaseCall} (hwrites : call.Writes s leaseId w)
    (hsees : h.Sees w) (hcounts : s.Counts leaseId) : Holding (call.run h s) leaseId w := by
  obtain ⟨l, hl, rfl⟩ := hcounts
  obtain ⟨hmem, hactive⟩ := CapacityState.mem_activeLeases.mp hl
  cases call with
  | attachWorker named pid pgid =>
    obtain ⟨hnamed, rfl, -⟩ := hwrites
    exact ⟨_, CapacityState.update_mem_write _ hmem hnamed, rfl, hactive, rfl⟩
  | detachToWorker named pid =>
    obtain ⟨hnamed, rfl, -⟩ := hwrites
    show Holding (if w.pid = 0 then s else _) _ w
    rw [if_neg (ne_of_gt hsees.1)]
    exact ⟨_, CapacityState.update_mem_write _ hmem hnamed, rfl, hactive, rfl⟩
  | _ => exact absurd hwrites id

/-- **Every live worker is counted in a run**: when an attach or a detach writes the pid of
a live worker, its lease is active after the call, and it is active in every later state up
to which the worker has stayed alive and no operator or owner has released it. -/
def Counted (s : CapacityState) (steps : List (Host × LeaseCall)) : Prop :=
  ∀ before h call after rest, steps = before ++ (h, call) :: (after ++ rest) →
    ∀ leaseId w, call.Writes (runCalls s before) leaseId w → h.Sees w →
      (call.run h (runCalls s before)).Counts leaseId ∧
      (Along (Undisturbed leaseId w) (call.run h (runCalls s before)) after →
        (runCalls (call.run h (runCalls s before)) after).Counts leaseId)

/-- The condition on the steps of a run: an attach or a detach finds its lease still
active, and while the worker lives and nobody releases it, every later call spares it. -/
def Careful (s : CapacityState) (steps : List (Host × LeaseCall)) : Prop :=
  ∀ before h call after rest, steps = before ++ (h, call) :: (after ++ rest) →
    ∀ leaseId w, call.Writes (runCalls s before) leaseId w → h.Sees w →
      (runCalls s before).Counts leaseId ∧
      (Along (Undisturbed leaseId w) (call.run h (runCalls s before)) after →
        Along (Spares leaseId w) (call.run h (runCalls s before)) after)

/-- **A running worker is counted in every careful run.** -/
theorem running_worker_counted {steps : List (Host × LeaseCall)}
    (hcareful : Careful s steps) : Counted s steps := by
  intro before h call after rest hsteps leaseId w hwrites hsees
  obtain ⟨hcounts, hspares⟩ := hcareful before h call after rest hsteps leaseId w hwrites hsees
  refine ⟨hwrites.counts_iff.mpr hcounts, fun hlive => ?_⟩
  exact ((hwrites.holding hsees hcounts).run hlive (hspares hlive)).counts

theorem Host.Sees.not_mistaken {h : Host} (hsees : h.Sees w)
    (hpid : l.workerPid = some w.pid)
    (hidentity : l.workerIdentity = some ⟨some w.pid, w.startToken⟩)
    (record : Option DispatchRecord) : ¬ h.Mistakes w l record := by
  have hroles : (l.workerView record).workerIdentity = some ⟨some w.pid, w.startToken⟩ := by
    cases record with
    | none => exact hidentity
    | some r =>
      show l.workerIdentity.or r.workerIdentity = _
      rw [hidentity]
      rfl
  have hview : (l.workerView record).identityForPid w.pid = some ⟨some w.pid, w.startToken⟩ := by
    unfold CapacityLease.identityForPid CapacityLease.roles
    rw [List.findSome?_cons]
    simp only [CapacityLease.workerView_workerPid hpid record, hroles, if_true]
  intro hmistakes
  unfold Host.Mistakes Host.pidGenerationMatches at hmistakes
  rw [Option.bind_some, hview, Option.bind_some] at hmistakes
  obtain ⟨expected, hexpected, hcurrent⟩ := Option.bind_eq_some_iff.mp hmistakes
  obtain ⟨current, htoken, hne⟩ := Option.map_eq_some_iff.mp hcurrent
  obtain ⟨heq, -⟩ := given_eq_some.mp hexpected
  cases heq
  exact of_decide_eq_false hne (hsees.2.2 current htoken)

/-- A lease that is attached while active, and a prune while its worker runs. -/
theorem attached_worker_counted :
    let host : Host := ⟨100, "m", fun _ => some true, fun _ => some "t7", fun _ => none,
      fun _ => none, fun _ => none⟩
    let lease : CapacityLease := {
      leaseId := "l1", state := "active", launchState := some "spawning", expiresAt := some 50 }
    let s : CapacityState := ⟨some "m", ⟨[lease], by simp⟩, .empty⟩
    let steps : List (Host × LeaseCall) :=
      [(host, .attachWorker (some "l1") 7 none), (host, .prune)]
    (runCalls s steps).Counts "l1" ∧ Counted s steps := by
  intro host lease s steps
  have hrows : ((LeaseCall.attachWorker (some "l1") 7 none).run host s).leases.rows =
      [{ lease with
        workerPid := some 7
        workerIdentity := some ⟨some 7, "t7"⟩
        launchState := some "attached" }] := by decide +kernel
  have hcounts : s.Counts "l1" := by decide +kernel
  have hnamed : given (some "l1") = some "l1" := by decide +kernel
  have htoken : host.processStartToken 7 = some "t7" := by decide +kernel
  have hcareful : Careful s steps := by
    intro before h call after rest hsteps leaseId w hwrites hsees
    match before, hsteps with
    | [], hsteps =>
      obtain ⟨hfirst, hrest⟩ := List.cons.inj hsteps
      obtain ⟨rfl, rfl⟩ := Prod.mk.inj hfirst
      obtain ⟨hid, hpid, -⟩ := hwrites
      cases hnamed.symm.trans hid
      have hpid : w = ⟨7, "t7"⟩ := by
        have htoken' := hsees.2.2
        rw [← hpid] at htoken'
        exact RunningWorker.ext hpid.symm (htoken' _ htoken).symm
      subst hpid
      refine ⟨hcounts, fun _ => ?_⟩
      match after, hrest with
      | [], _ => trivial
      | [_], hrest =>
        obtain ⟨rfl, -⟩ := List.cons.inj hrest
        refine ⟨fun l hl _ => ⟨id, ?_⟩, trivial⟩
        rw [runCalls, Table.mem_def, hrows] at hl
        obtain rfl := List.mem_singleton.mp hl
        exact hsees.not_mistaken rfl rfl none
      | _ :: _ :: _, hrest => exact absurd hrest.symm (by simp)
    | [_], hsteps =>
      obtain ⟨-, hrest⟩ := List.cons.inj hsteps
      obtain ⟨hfirst, -⟩ := List.cons.inj hrest
      obtain ⟨rfl, rfl⟩ := Prod.mk.inj hfirst
      exact absurd hwrites id
    | _ :: _ :: _, hsteps =>
      obtain ⟨-, hrest⟩ := List.cons.inj hsteps
      obtain ⟨-, hrest⟩ := List.cons.inj hrest
      exact absurd hrest.symm (by simp)
  exact ⟨by decide +kernel, running_worker_counted hcareful⟩

/-- A slow launcher: its reservation expires while the dispatch is already over, the
terminal hook ends the lease, and the attach that follows writes a live worker into it. -/
theorem late_worker_uncounted :
    let record : DispatchRecord := {
      dispatchId := "d1", state := "failed", workerStillAlive := some false }
    let host (now : Time) : Host := ⟨now, "m", fun _ => some true, fun _ => some "t7",
      fun _ => some true, fun _ => some record, fun _ => none⟩
    let i : Installation := ⟨Limits.committed, 16384, none⟩
    let args : AcquireArgs := {
      agent := "codex", dispatchId := some "d1", callerPid := 9, freshId := "l1" }
    let steps : List (Host × LeaseCall) := [
      (host 0, .acquire i [] args .normal),
      (host 1, .markSpawning (some "l1")),
      (host 301, .releaseTerminal "d1" "failed"),
      (host 302, .attachWorker (some "l1") 7 (some 7))]
    ¬ Counted ⟨some "m", .empty, .empty⟩ steps := by
  intro record host i args steps hcounted
  have hpresent : (∃ l ∈ (runCalls ⟨some "m", .empty, .empty⟩ (steps.take 3)).leases,
      l.leaseId = "l1") := by decide +kernel
  have hsees : (host 302).Sees ⟨7, "t7"⟩ := by
    refine ⟨by decide, by decide, fun token htoken => ?_⟩
    have hread : (host 302).processStartToken 7 = some "t7" := by decide +kernel
    exact Option.some.inj (htoken.symm.trans hread)
  have hnamed : given (some "l1") = some "l1" := by decide +kernel
  have hgone : ¬ (runCalls ⟨some "m", .empty, .empty⟩ steps).Counts "l1" := by decide +kernel
  exact hgone (hcounted (steps.take 3) (host 302) (.attachWorker (some "l1") 7 (some 7)) [] [] rfl
    "l1" ⟨7, "t7"⟩ ⟨hnamed, rfl, hpresent⟩ hsees).1

end GoalFlight.Capacity
