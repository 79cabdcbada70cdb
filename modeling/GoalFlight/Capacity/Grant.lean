import GoalFlight.Capacity.Admission

/-!
# Capacity: what a grant touches

`cmd_acquire` prunes, may reclaim, and writes one lease under an id that the caller may
choose.  A refusal saves nothing.  A grant drops what the prune and the reclaim end, and
puts its lease in the place of whatever lease has its id: `grant_frame_iff` says that this
is the one way in which a grant can take an active lease from its holder.
-/

namespace GoalFlight.Capacity

open Relational

variable {h : Host} {lane : Lane} {args : AcquireArgs} {i : Installation} {l : CapacityLease}
  {s : CapacityState} {pressure : List PressureEntry}

variable {priority : Option String}

/-! ### The request -/

/-- The lane of a name in `PRIORITY_LANES`. -/
def Lane.ofName? (name : String) : Option Lane :=
  match name with
  | "critical" => some .critical
  | "normal" => some .normal
  | "bulk" => some .bulk
  | _ => none

/-- The lane `--priority` names, normal without one. -/
def laneOf (priority : Option String) : Option Lane :=
  let name := strip ((given priority).getD "normal")
  Lane.ofName? (String.ofList (name.toList.map Char.toLower))

/-- `cmd_acquire` on the state file, which is `none` when it cannot be read: the decision,
and the file it leaves. -/
def Host.cmdAcquireRequest (h : Host) (i : Installation) (pressure : List PressureEntry)
    (args : AcquireArgs) (priority : Option String) (stored : Option CapacityState) :
    Decision × Option CapacityState :=
  let d := demand i pressure args
  if legacyAgentHandles.lookup d.agent ≠ none then (.error "agent is retired", stored)
  else
    match stored with
    | none => (.wait "capacity_state_unreadable", stored)
    | some s =>
      match laneOf priority with
      | some lane =>
        let answer := h.cmdAcquire i pressure args lane s
        (answer.1, some answer.2)
      | none =>
        -- The priority is looked at after the cooldown.
        match (h.pruneState s).cooldownFor d.agent d.account with
        | some cooldown => (.wait ("cooldown:" ++ cooldown.reason), stored)
        | none => (.error "unknown priority", stored)

/-- The id a grant is written under. -/
def AcquireArgs.grantedId (args : AcquireArgs) : String :=
  (given args.leaseId).getD args.freshId

/-! ### The frame -/

/-- The active leases of `before` are all there, and one is new. -/
structure AddsOne (before after : CapacityState) : Prop where
  kept : ∀ l ∈ before.activeLeases, l ∈ after.activeLeases
  one_new : ∃! l, l ∈ after.activeLeases ∧ l ∉ before.activeLeases

/-- The state that the call's own prune and reclaim leave. -/
def Host.pruned (h : Host) (i : Installation) (pressure : List PressureEntry)
    (args : AcquireArgs) (lane : Lane) (s : CapacityState) : CapacityState :=
  h.roomState (profile i args) (demand i pressure args) lane (h.pruneState s)

/-- **The frame of a request.**  A grant adds one lease to what prune and reclaim leave,
and any other answer leaves the file alone. -/
structure Host.GrantFrame (h : Host) (i : Installation) (pressure : List PressureEntry)
    (args : AcquireArgs) (priority : Option String) (stored : Option CapacityState) : Prop where
  refused : ∀ answer after,
    h.cmdAcquireRequest i pressure args priority stored = (answer, after) →
    (∀ lease, answer ≠ .allow lease) → after = stored
  granted : ∀ lease after,
    h.cmdAcquireRequest i pressure args priority stored = (.allow lease, after) →
    ∃ s lane s', stored = some s ∧ laneOf priority = some lane ∧ after = some s' ∧
      lease ∈ s'.activeLeases ∧ AddsOne (h.pruned i pressure args lane s) s'

/-! ### What prune and reclaim leave -/

/-- The TTL step of `prune_state` ends the lease. -/
def Host.Expires (h : Host) (s : CapacityState) (l : CapacityLease) : Prop :=
  (∃ t ∈ l.expiresAt, t < h.now) ∧ h.leaseIsLocal s l = true ∧ h.leasePidsDead l = true

/-- The leases a request's own prune and reclaim leave active: those that are neither
past their time with a dead worker nor, on a full machine, stale. -/
def Host.Survives (h : Host) (i : Installation) (pressure : List PressureEntry)
    (args : AcquireArgs) (lane : Lane) (s : CapacityState) (l : CapacityLease) : Prop :=
  l.Active ∧ ¬ h.Expires s l ∧
    (h.HasRoom (profile i args) (demand i pressure args) lane (h.pruneState s) ∨
      h.staleLease s l = false ∨ l.leaseId = "")

theorem Host.mem_activeLeases_pruneState :
    l ∈ (h.pruneState s).activeLeases ↔ l ∈ s.leases ∧ l.Active ∧ ¬ h.Expires s l := by
  rw [CapacityState.mem_activeLeases]
  constructor
  · rintro ⟨hl, hactive⟩
    obtain ⟨hmodified, -⟩ := Table.mem_filter.mp hl
    obtain ⟨r, hr, hrl⟩ := KeyedTable.mem_modify.mp hmodified
    by_cases hexpires : h.Expires s r
    · have hended : h.expire s r =
          { r with state := "expired", endedAt := some (r.endedAt.getD h.now) } := if_pos hexpires
      rw [hended] at hrl
      rw [← hrl] at hactive
      exact absurd hactive (show "expired" ≠ "active" by decide)
    · have hsame : h.expire s r = r := if_neg hexpires
      rw [hsame] at hrl
      subst hrl
      exact ⟨hr, hactive, hexpires⟩
  · rintro ⟨hl, hactive, hexpires⟩
    have hsame : h.expire s l = l := if_neg hexpires
    exact ⟨Table.mem_filter.mpr ⟨KeyedTable.mem_modify_of_eq (h.expire_leaseId s) hl hsame,
      hactive.recent⟩, hactive⟩

theorem Host.mem_reclaimCandidates :
    l ∈ h.reclaimCandidates s false ↔
      l ∈ s.activeLeases ∧ h.staleLease s l = true ∧ l.leaseId ≠ "" := by
  unfold Host.reclaimCandidates Host.staleActiveLeases
  simp only [Bool.false_eq_true, if_false, List.append_nil, List.mem_filter, ne_eq,
    decide_not, Bool.not_eq_true', decide_eq_false_iff_not, and_assoc]

/-- A rewriting that keeps the rows it leaves with a property, and takes the property from
the others. -/
theorem filter_map_of_kept {α : Type} {f : α → α} {p q : α → Prop} [DecidablePred p]
    [DecidablePred q] {rows : List α} (hkept : ∀ r ∈ rows, q r → f r = r)
    (hlost : ∀ r ∈ rows, ¬ q r → ¬ p (f r)) :
    (rows.map f).filter p = (rows.filter p).filter q := by
  induction rows with
  | nil => rfl
  | cons r rest ih =>
    have ih := ih (fun r' hr' => hkept r' (List.mem_cons_of_mem r hr'))
      (fun r' hr' => hlost r' (List.mem_cons_of_mem r hr'))
    by_cases hq : q r
    · have hsame := hkept r List.mem_cons_self hq
      by_cases hp : p r
      · simp [hsame, hp, hq, ih]
      · simp [hsame, hp, ih]
    · have hnot := hlost r List.mem_cons_self hq
      by_cases hp : p r
      · simp [hnot, hp, hq, ih]
      · simp [hnot, hp, ih]

theorem Host.activeLeases_reclaimStaleLeases (h : Host) (s : CapacityState) (reason : String) :
    (h.reclaimStaleLeases s "expired" reason false).2.activeLeases =
      s.activeLeases.filter fun l => l ∉ h.reclaimCandidates s false := by
  refine filter_map_of_kept (fun r _ hkept => if_pos hkept) fun r _ hends hactive => ?_
  -- A reclaimed lease is expired or released.
  unfold Host.reclaimLease at hactive
  rw [if_neg hends] at hactive
  split at hactive
  · exact absurd hactive (show "released" ≠ "active" by decide)
  · exact absurd hactive (show "expired" ≠ "active" by decide)

theorem Host.mem_activeLeases_reclaimStaleLeases {reason : String} :
    l ∈ (h.reclaimStaleLeases s "expired" reason false).2.activeLeases ↔
      l ∈ s.activeLeases ∧ (h.staleLease s l = false ∨ l.leaseId = "") := by
  rw [h.activeLeases_reclaimStaleLeases, List.mem_filter, decide_eq_true_eq]
  refine and_congr_right fun hl => ?_
  rw [Host.mem_reclaimCandidates]
  simp only [hl, true_and, not_and, not_not, ne_eq]
  cases h.staleLease s l <;> simp

theorem Host.activeLeases_pruned_sublist (h : Host) (i : Installation)
    (pressure : List PressureEntry) (args : AcquireArgs) (lane : Lane) (s : CapacityState) :
    (h.roomState (profile i args) (demand i pressure args) lane
      (h.pruneState s)).activeLeases.Sublist (h.pruneState s).activeLeases := by
  unfold Host.roomState
  simp only
  split
  · exact List.Sublist.refl _
  · split
    · exact List.Sublist.refl _
    · rw [h.activeLeases_reclaimStaleLeases]
      exact List.filter_sublist

theorem Host.staleLease_pruneState (h : Host) (s : CapacityState) (l : CapacityLease) :
    h.staleLease (h.pruneState s) l = h.staleLease s l :=
  rfl

theorem Host.mem_activeLeases_pruned :
    l ∈ (h.pruned i pressure args lane s).activeLeases ↔
      l ∈ s.leases ∧ h.Survives i pressure args lane s l := by
  unfold Host.pruned Host.roomState Host.Survives
  by_cases hroom : h.fullReason (profile i args) (demand i pressure args) lane
      (h.pruneState s) = none
  · rw [if_pos hroom, Host.mem_activeLeases_pruneState]
    simp only [Host.fullReason_eq_none.mp hroom, true_or, and_true]
  · have hfull : ¬ h.HasRoom (profile i args) (demand i pressure args) lane
        (h.pruneState s) := fun hhas => hroom (Host.fullReason_eq_none.mpr hhas)
    rw [if_neg hroom]
    simp only [hfull, false_or]
    split
    · rename_i hnone
      rw [Host.mem_activeLeases_pruneState]
      refine ⟨fun hl => ⟨hl.1, hl.2.1, hl.2.2, ?_⟩, fun hl => ⟨hl.1, hl.2.1, hl.2.2.1⟩⟩
      have hcandidates : h.reclaimCandidates (h.pruneState s) false = [] :=
        List.map_eq_nil_iff.mp hnone
      have hnot : l ∉ h.reclaimCandidates (h.pruneState s) false := by
        rw [hcandidates]
        exact List.not_mem_nil
      rw [Host.mem_reclaimCandidates, h.staleLease_pruneState] at hnot
      have hmem := Host.mem_activeLeases_pruneState.mpr hl
      by_cases hid : l.leaseId = ""
      · exact .inr hid
      · exact .inl (Bool.eq_false_iff.mpr fun hstale => hnot ⟨hmem, hstale, hid⟩)
    · rw [Host.mem_activeLeases_reclaimStaleLeases, Host.mem_activeLeases_pruneState,
        h.staleLease_pruneState]
      simp only [and_assoc]

/-! ### What a grant puts in its place -/

theorem CapacityState.mem_activeLeases_put {r : CapacityLease} (hactive : l.Active) :
    r ∈ (s.put l).activeLeases ↔ (r ∈ s.activeLeases ∧ r.leaseId ≠ l.leaseId) ∨ r = l := by
  rw [CapacityState.activeLeases_put hactive, List.mem_append, List.mem_filter,
    List.mem_singleton, decide_eq_true_eq]

theorem CapacityState.addsOne_put_iff (hactive : l.Active) :
    AddsOne s (s.put l) ↔ ∀ r ∈ s.activeLeases, r.leaseId ≠ l.leaseId := by
  constructor
  · rintro ⟨hkept, hnew⟩ r hr hid
    -- The lease with the id is still there, so it is the one that was put.
    rcases (CapacityState.mem_activeLeases_put hactive).mp (hkept r hr) with ⟨-, hne⟩ | heq
    · exact hne hid
    · subst heq
      obtain ⟨n, ⟨hn, hnot⟩, -⟩ := hnew
      rcases (CapacityState.mem_activeLeases_put hactive).mp hn with ⟨hold, -⟩ | heq
      · exact hnot hold
      · exact hnot (heq ▸ hr)
  · intro hfree
    have hl : l ∉ s.activeLeases := fun hl => hfree l hl rfl
    constructor
    · intro r hr
      exact (CapacityState.mem_activeLeases_put hactive).mpr (.inl ⟨hr, hfree r hr⟩)
    · refine ⟨l, ⟨(CapacityState.mem_activeLeases_put hactive).mpr (.inr rfl), hl⟩, ?_⟩
      rintro r ⟨hr, hnot⟩
      rcases (CapacityState.mem_activeLeases_put hactive).mp hr with ⟨hold, -⟩ | heq
      · exact absurd hold hnot
      · exact heq

/-! ### Answers -/

/-- A request that is not refused: its agent is not retired, it is not cooling down and
the lane has room. -/
def Host.Admits (h : Host) (i : Installation) (pressure : List PressureEntry)
    (args : AcquireArgs) (lane : Lane) (s : CapacityState) : Prop :=
  legacyAgentHandles.lookup (demand i pressure args).agent = none ∧
    (h.pruneState s).cooldownFor (demand i pressure args).agent
      (demand i pressure args).account = none ∧
    h.HasRoom (profile i args) (demand i pressure args) lane (h.pruned i pressure args lane s)

theorem Host.cmdAcquire_of_admits (hadmits : h.Admits i pressure args lane s) :
    h.cmdAcquire i pressure args lane s =
      (.allow (h.grantedLease args (demand i pressure args)),
        (h.pruned i pressure args lane s).put
          (h.grantedLease args (demand i pressure args))) := by
  obtain ⟨hagent, hcooldown, hroom⟩ := hadmits
  unfold Host.pruned at hroom ⊢
  unfold Host.cmdAcquire
  simp only
  rw [if_neg (not_not.mpr hagent), hcooldown]
  simp only [Host.fullReason_eq_none.mpr hroom]

theorem Host.cmdAcquire_refused (hrefused : ¬ h.Admits i pressure args lane s) :
    (h.cmdAcquire i pressure args lane s).2 = s ∧
      ∀ lease, (h.cmdAcquire i pressure args lane s).1 ≠ .allow lease := by
  unfold Host.cmdAcquire
  simp only
  split
  · exact ⟨rfl, fun _ => by simp⟩
  · rename_i hagent
    split
    · exact ⟨rfl, fun _ => by simp⟩
    · rename_i hcooldown
      split
      · exact ⟨rfl, fun _ => by simp⟩
      · rename_i hroom
        exact absurd ⟨not_not.mp hagent, hcooldown, Host.fullReason_eq_none.mp hroom⟩ hrefused

theorem Host.cmdAcquireRequest_cases (h : Host) (i : Installation)
    (pressure : List PressureEntry) (args : AcquireArgs) (priority : Option String)
    (stored : Option CapacityState) :
    (∃ s lane, stored = some s ∧ laneOf priority = some lane ∧
      h.Admits i pressure args lane s ∧
      h.cmdAcquireRequest i pressure args priority stored =
        (.allow (h.grantedLease args (demand i pressure args)),
          some ((h.pruned i pressure args lane s).put
            (h.grantedLease args (demand i pressure args))))) ∨
    ((∀ s lane, stored = some s → laneOf priority = some lane →
        ¬ h.Admits i pressure args lane s) ∧
      (h.cmdAcquireRequest i pressure args priority stored).2 = stored ∧
      ∀ lease, (h.cmdAcquireRequest i pressure args priority stored).1 ≠ .allow lease) := by
  unfold Host.cmdAcquireRequest
  simp only
  by_cases hagent : legacyAgentHandles.lookup (demand i pressure args).agent = none
  · rw [if_neg (not_not.mpr hagent)]
    cases stored with
    | none =>
      refine .inr ⟨?_, rfl, fun _ => by simp⟩
      intro s lane hs
      cases hs
    | some s =>
      cases hlane : laneOf priority with
      | none =>
        refine .inr ⟨?_, ?_⟩
        · intro s lane _ hlane
          cases hlane
        · simp only
          split
          · exact ⟨rfl, fun _ => by simp⟩
          · exact ⟨rfl, fun _ => by simp⟩
      | some lane =>
        simp only
        by_cases hadmits : h.Admits i pressure args lane s
        · refine .inl ⟨s, lane, rfl, rfl, hadmits, ?_⟩
          rw [Host.cmdAcquire_of_admits hadmits]
        · obtain ⟨hsame, hanswer⟩ := Host.cmdAcquire_refused hadmits
          refine .inr ⟨?_, congrArg some hsame, hanswer⟩
          intro s' lane' hs hlane'
          cases hs
          cases hlane'
          exact hadmits
  · rw [if_pos hagent]
    refine .inr ⟨?_, rfl, fun _ => by simp⟩
    intro s lane _ _ hadmits
    exact hagent hadmits.1

theorem Host.grantFrame_of_free {stored : Option CapacityState}
    (hfree : ∀ s lane, stored = some s → laneOf priority = some lane →
      h.Admits i pressure args lane s →
      ∀ l ∈ s.leases, h.Survives i pressure args lane s l → l.leaseId ≠ args.grantedId) :
    h.GrantFrame i pressure args priority stored := by
  have hactive : (h.grantedLease args (demand i pressure args)).Active := rfl
  rcases h.cmdAcquireRequest_cases i pressure args priority stored with
    ⟨s, lane, hs, hlane, hadmits, hallow⟩ | ⟨-, hsame, hanswer⟩
  · constructor
    · intro answer after hrun hnever
      rw [hallow] at hrun
      cases hrun
      exact absurd rfl (hnever _)
    · intro lease after hrun
      rw [hallow] at hrun
      cases hrun
      refine ⟨s, lane, _, hs, hlane, rfl, ?_, ?_⟩
      · exact (CapacityState.mem_activeLeases_put hactive).mpr (.inr rfl)
      · refine (CapacityState.addsOne_put_iff hactive).mpr fun r hr => ?_
        obtain ⟨hmem, hsurvives⟩ := Host.mem_activeLeases_pruned.mp hr
        exact hfree s lane hs hlane hadmits r hmem hsurvives
  · constructor
    · intro answer after hrun _
      rw [hrun] at hsame
      exact hsame
    · intro lease after hrun
      have hallow : (h.cmdAcquireRequest i pressure args priority stored).1 = .allow lease := by
        rw [hrun]
      exact absurd hallow (hanswer lease)

section

variable (hframe : h.GrantFrame i pressure args priority (some s))
  (hlane : laneOf priority = some lane)
include hframe hlane

theorem Host.GrantFrame.kept {lease : CapacityLease}
    (hallow : (h.cmdAcquireRequest i pressure args priority (some s)).1 = .allow lease) :
    ∃ s' ∈ (h.cmdAcquireRequest i pressure args priority (some s)).2,
      AddsOne (h.pruned i pressure args lane s) s' := by
  have hrun : h.cmdAcquireRequest i pressure args priority (some s) =
      (.allow lease, (h.cmdAcquireRequest i pressure args priority (some s)).2) := by
    rw [← hallow]
  obtain ⟨s₁, lane₁, s', hs, hlane₁, hafter, -, hone⟩ := hframe.granted lease _ hrun
  cases hs
  cases hlane.symm.trans hlane₁
  exact ⟨s', hafter, hone⟩

theorem Host.GrantFrame.addsOne (hadmits : h.Admits i pressure args lane s) :
    AddsOne (h.pruned i pressure args lane s) ((h.pruned i pressure args lane s).put
      (h.grantedLease args (demand i pressure args))) := by
  rcases h.cmdAcquireRequest_cases i pressure args priority (some s) with
    ⟨s₁, lane₁, hs, hlane₁, -, hallow⟩ | ⟨hnot, -⟩
  · cases hs
    cases hlane.symm.trans hlane₁
    have hfirst : (h.cmdAcquireRequest i pressure args priority (some s)).1 =
        .allow (h.grantedLease args (demand i pressure args)) := by rw [hallow]
    obtain ⟨s', hafter, hone⟩ := hframe.kept hlane hfirst
    rw [hallow] at hafter
    cases hafter
    exact hone
  · exact absurd hadmits (hnot s lane rfl hlane)

end

/-- **A grant keeps to its own slot exactly when its id is free.**  For every machine,
request and state file, the frame holds if and only if the request is refused or no active
lease that its own prune and reclaim leave has the id it is granted under. -/
theorem grant_frame_iff (h : Host) (i : Installation) (pressure : List PressureEntry)
    (args : AcquireArgs) (priority : Option String) (stored : Option CapacityState) :
    h.GrantFrame i pressure args priority stored ↔
      ∀ s lane, stored = some s → laneOf priority = some lane →
        h.Admits i pressure args lane s →
        ∀ l ∈ s.leases, h.Survives i pressure args lane s l → l.leaseId ≠ args.grantedId := by
  constructor
  · rintro hframe s lane rfl hlane hadmits l hl hsurvives
    exact (CapacityState.addsOne_put_iff rfl).mp (hframe.addsOne hlane hadmits) l
      (Host.mem_activeLeases_pruned.mpr ⟨hl, hsurvives⟩)
  · exact Host.grantFrame_of_free

/-- `--lease-id l1` while `l1` is the lease of a live worker: the grant takes its place. -/
theorem grant_takes_lease :
    let host : Host := ⟨100, "m", fun _ => some true, fun _ => none, fun _ => some true,
      fun _ => none, fun _ => none⟩
    let i : Installation := ⟨Limits.committed, 16384, none⟩
    let args : AcquireArgs := {
      agent := "codex", leaseId := some "l1", callerPid := 9, freshId := "u1" }
    let lease : CapacityLease := {
      leaseId := "l1", state := "active", agent := "codex", memMb := 386, workerPid := some 7 }
    let s : CapacityState := ⟨some "m", ⟨[lease], by simp⟩, .empty⟩
    ¬ host.GrantFrame i [] args none (some s) := by
  intro host i args lease s hframe
  have hallow : (host.cmdAcquireRequest i [] args none (some s)).1 =
      .allow (host.grantedLease args (demand i [] args)) := by decide +kernel
  have hlane : laneOf none = some .normal := by decide +kernel
  have hbefore : lease ∈ (host.pruned i [] args .normal s).activeLeases := by decide +kernel
  have hgone : ∀ s' ∈ (host.cmdAcquireRequest i [] args none (some s)).2,
      lease ∉ s'.activeLeases := by decide +kernel
  obtain ⟨s', hafter, hone⟩ := hframe.kept hlane hallow
  exact hgone s' hafter (hone.kept lease hbefore)

end GoalFlight.Capacity
