import GoalFlight.Capacity.Reclaim
import Mathlib.Algebra.Order.BigOperators.Group.List
import Mathlib.Tactic.Linarith

/-!
# Capacity: admission

`cmd_acquire` grants a lease when three sums stay below their ceilings: the number of
active leases, the weight of those on the request's vendor and account, and their memory.
The first two ceilings depend on the priority lane.  `acquire_safe_iff` has the exact
overrides for which every grant keeps the ceilings of the machine and a higher lane is
granted whatever a lower one is.

Weights are floats in the source and exact fractions here.
-/

namespace GoalFlight.Capacity

open Relational

variable {h : Host} {l : CapacityLease} {s : CapacityState}

/-! ### Names -/

/-- `str.strip`. -/
def strip (text : String) : String :=
  String.ofList ((text.toList.dropWhile Char.isWhitespace).reverse.dropWhile
    Char.isWhitespace).reverse

/-- `normalize_agent`, and the spelling of a model key. -/
def normalizeAgent (agent : String) : String :=
  String.ofList ((strip agent).toList.map Char.toLower)

/-- `LEGACY_AGENT_HANDLES`. -/
def legacyAgentHandles : List (String × String) := [("kimi", "moonshot")]

/-- `AGENT_CAP_POOL`. -/
def agentCapPool : List (String × String) :=
  [("codex-acp", "codex"), ("grok-code", "grok"), ("grok-research", "grok"),
    ("grok-acp", "grok"), ("grok-bash-tail", "grok")]

/-- `canonical_agent_label`. -/
def canonicalAgentLabel (agent : String) : String :=
  (legacyAgentHandles.lookup (normalizeAgent agent)).getD (normalizeAgent agent)

/-- `cap_pool`. -/
def capPool (agent : String) : String :=
  (agentCapPool.lookup (canonicalAgentLabel agent)).getD (canonicalAgentLabel agent)

/-! ### Limits -/

/-- The limits of one machine: the committed tables with the local overrides merged in.
The merge drops what is not positive. -/
structure Limits where
  agentCaps : List (String × ℕ)
  agentRssMb : List (String × ℕ)
  accountCaps : List (String × List (String × ℕ))
  modelWeights : List (String × List (String × ℚ))
  hardCap : ℤ
  operatingTotal : Option ℤ
  rss_pos : ∀ e ∈ agentRssMb, 0 < e.2
  weight_pos : ∀ vendor ∈ modelWeights, ∀ e ∈ vendor.2, 0 < e.2

/-- The committed tables. -/
def Limits.committed : Limits where
  agentCaps := [("cursor", 3), ("cursor-agent", 3), ("opencode", 10), ("opencode-acp", 10),
    ("opencode-bash-tail", 10), ("claude", 5), ("claude-code-cli-acp", 5), ("codex", 18),
    ("codex-acp", 18), ("moonshot", 6), ("grok", 30), ("grok-acp", 30), ("grok-code", 30),
    ("grok-research", 30), ("herm-worker", 2), ("cla-worker", 2), ("paperclip", 2)]
  agentRssMb := [("grok", 200), ("grok-acp", 200), ("grok-code", 200), ("grok-research", 200),
    ("codex", 386), ("codex-acp", 386), ("moonshot", 386), ("claude", 614),
    ("claude-code-cli-acp", 614), ("cursor", 1203), ("cursor-agent", 1203), ("opencode", 386),
    ("opencode-acp", 386), ("opencode-bash-tail", 386)]
  accountCaps := []
  modelWeights := []
  hardCap := 40
  operatingTotal := none
  rss_pos := by decide
  weight_pos := by simp

/-- `_account_cap` with its default. -/
def Limits.accountCap (c : Limits) (vendor account : String) (default : ℤ) : ℤ :=
  let configured := (c.accountCaps.lookup (capPool vendor)).getD []
  match configured.lookup account with
  | some cap => cap
  | none =>
    match configured.lookup "default" with
    | some cap => cap
    | none => default

/-- `model_weight`. -/
def Limits.modelWeight (c : Limits) (vendor : String) (model : Option String) : ℚ :=
  match (model.map normalizeAgent).filter (· ≠ "") with
  | none => 1
  | some key =>
    match ((c.modelWeights.lookup (capPool vendor)).getD []).lookup key with
    | some weight => weight
    | none => ((((c.modelWeights.lookup "*").getD []).lookup key).getD 1)

theorem mem_of_lookup_eq_some {β : Type} {table : List (String × β)} {key : String} {value : β}
    (h : table.lookup key = some value) : (key, value) ∈ table := by
  induction table with
  | nil => cases h
  | cons e rest ih =>
    rw [List.lookup_cons] at h
    split at h
    · rename_i heq
      cases h
      rw [beq_iff_eq.mp heq]
      exact List.mem_cons_self
    · exact List.mem_cons_of_mem _ (ih h)

theorem Limits.lookup_weight_pos (c : Limits) {vendor key : String} {weight : ℚ}
    (h : ((c.modelWeights.lookup vendor).getD []).lookup key = some weight) : 0 < weight := by
  cases hvendor : c.modelWeights.lookup vendor with
  | none =>
    rw [hvendor] at h
    cases h
  | some weights =>
    rw [hvendor] at h
    exact c.weight_pos _ (mem_of_lookup_eq_some hvendor) _ (mem_of_lookup_eq_some h)

theorem Limits.modelWeight_pos (c : Limits) (vendor : String) (model : Option String) :
    0 < c.modelWeight vendor model := by
  unfold Limits.modelWeight
  split
  · exact one_pos
  · split
    · exact c.lookup_weight_pos ‹_›
    · cases hany : ((c.modelWeights.lookup "*").getD []).lookup _ with
      | none => exact one_pos
      | some weight => exact c.lookup_weight_pos hany

/-! ### The machine profile -/

/-- `PRIORITY_LANES`. -/
inductive Lane
  | critical
  | normal
  | bulk
deriving DecidableEq

variable {lane : Lane}

/-- The arguments of `cmd_acquire` but the lane, with the process that calls it and the
UUID it would draw. -/
structure AcquireArgs where
  agent : String
  account : Option String := none
  effectiveAccount : Option String := none
  model : Option String := none
  dispatchId : Option String := none
  leaseId : Option String := none
  memMb : Option ℕ := none
  agentCap : Option ℤ := none
  maxTotal : Option ℤ := none
  ramMb : Option ℤ := none
  reserveMb : Option ℤ := none
  worstWorkerMb : Option ℤ := none
  hardCap : Option ℤ := none
  workerPid : Option ℤ := none
  controllerPid : Option ℤ := none
  ttl : Time := 28800
  callerPid : ℤ
  freshId : String

variable {args : AcquireArgs}

/-- What the machine adds: its limits, the RAM it detects (0 when it cannot), and
`GOALFLIGHT_CAPACITY_MAX_TOTAL` when that is a number. -/
structure Installation where
  limits : Limits
  detectedRamMb : ℤ
  maxTotalEnv : Option ℤ

variable {i : Installation}

/-- `x or default` of numbers. -/
def orElse (x : Option ℤ) (default : ℤ) : ℤ := (x.filter (· ≠ 0)).getD default

/-- The fields of `profile` that admission reads. -/
structure Profile where
  ramMb : ℤ
  reserveMb : ℤ
  rawRamCeiling : ℤ
  operatingCap : ℤ

variable {p : Profile}

/-- `operating_cap_for_ram`. -/
def operatingCapForRam (i : Installation) (ramMb rawCeiling : ℤ) : ℤ :=
  match i.maxTotalEnv with
  | some total => max 1 (min rawCeiling total)
  | none =>
    match i.limits.operatingTotal with
    | some total => max 1 (min rawCeiling total)
    | none =>
      let tier :=
        if ramMb ≤ 0 then 2
        else if ramMb ≤ 8 * 1024 then 1
        else if ramMb ≤ 16 * 1024 then 3
        else if ramMb ≤ 32 * 1024 then 4
        else if ramMb ≤ 64 * 1024 then 6
        else 32
      max 1 (min rawCeiling tier)

/-- `profile`. -/
def profile (i : Installation) (args : AcquireArgs) : Profile :=
  let ramMb := orElse args.ramMb i.detectedRamMb
  let reserveMb := orElse args.reserveMb 2048
  let worstWorkerMb := orElse args.worstWorkerMb 1200
  let hardCap := orElse args.hardCap i.limits.hardCap
  let headroomMb := max 0 (ramMb - reserveMb)
  let rawCeiling := max 1 (min hardCap (headroomMb.fdiv worstWorkerMb))
  let operatingCap :=
    if orElse args.maxTotal 0 ≠ 0 then max 1 (min rawCeiling (orElse args.maxTotal 0))
    else operatingCapForRam i ramMb rawCeiling
  ⟨ramMb, reserveMb, rawCeiling, operatingCap⟩

theorem one_le_rawRamCeiling (i : Installation) (args : AcquireArgs) :
    1 ≤ (profile i args).rawRamCeiling :=
  le_max_left _ _

/-! ### Rate pressure -/

/-- A provider under rate pressure, as `goalflight_rate_pressure` reports it. -/
structure PressureEntry where
  scope : String
  labels : List String
  effectiveCaps : List (String × ℤ)
  recommendedCaps : List (String × ℤ)
  quotaHardStop : Bool

variable {pressure : List PressureEntry}

/-- The cap one entry leaves an agent, when it lowers it. -/
def PressureEntry.lowers (e : PressureEntry) (agent : String) (baseAgentCap : ℤ) : Option ℤ :=
  let labels := e.labels.map normalizeAgent
  let caps := if e.effectiveCaps = [] then e.recommendedCaps else e.effectiveCaps
  if e.scope = "account" then none
  else if agent ∉ labels ∧ capPool agent ∉ labels then none
  else
    match (caps.lookup agent).or (caps.lookup (capPool agent)) with
    | none => none
    | some recommended =>
      let effective :=
        if e.quotaHardStop ∧ e.scope ≠ "agent" then 0
        else max 1 (min baseAgentCap (if recommended > 0 then recommended else baseAgentCap))
      if effective ≥ baseAgentCap then none else some effective

/-- `adaptive_agent_cap`: the cap, and whether pressure lowered it. -/
def adaptiveAgentCap (agent : String) (baseAgentCap : ℤ) (pressure : List PressureEntry) :
    ℤ × Bool :=
  match pressure.findSome? fun e => e.lowers (normalizeAgent agent) baseAgentCap with
  | some cap => (cap, true)
  | none => (baseAgentCap, false)

/-! ### The request -/

/-- `_lease_vendor`. -/
def CapacityLease.vendor (l : CapacityLease) : String := capPool (normalizeAgent l.agent)

/-- An account that is named and is not the default one. -/
def namedAccount (text : String) : Option String :=
  if strip text ≠ "" ∧ strip text ≠ "default" then some (strip text) else none

/-- `_lease_account`: the lease's own account, else the one its dispatch is billed to. -/
def Host.leaseAccount (h : Host) (l : CapacityLease) : String :=
  match (namedAccount l.account).or (namedAccount l.effectiveAccount) with
  | some account => account
  | none =>
    match h.dispatchRecordForLease l.dispatchId with
    | none => "default"
    | some record =>
      if record.state = "unreadable" then "default"
      else ((namedAccount record.effectiveAccount).or (namedAccount record.account)).getD
        "default"

/-- `_lease_weight`. -/
def CapacityLease.weight (l : CapacityLease) : ℚ := (l.capacityWeight.filter (0 < ·)).getD 1

/-- What `cmd_acquire` computes from the request before it looks at the leases. -/
structure Demand where
  agent : String
  pool : String
  account : String
  rssMb : ℕ
  weight : ℚ
  agentCap : ℤ
  underPressure : Bool
  /-- The account has a cap of its own: it is named, or configured. -/
  ownAccountCap : Bool
  maxTotal : ℤ

variable {d : Demand}

/-- The request's demand. -/
def demand (i : Installation) (pressure : List PressureEntry) (args : AcquireArgs) : Demand :=
  let agent := normalizeAgent args.agent
  let pool := capPool agent
  let asked := strip (((given args.account).or (given args.effectiveAccount)).getD "default")
  let account := if asked = "" then "default" else asked
  let legacyAgentCap := (i.limits.agentCaps.lookup pool).getD
    ((i.limits.agentCaps.lookup agent).getD 2)
  let baseAgentCap := orElse args.agentCap (i.limits.accountCap pool account legacyAgentCap)
  let cap := adaptiveAgentCap agent baseAgentCap pressure
  { agent := agent
    pool := pool
    account := account
    rssMb := (args.memMb.filter (· ≠ 0)).getD ((i.limits.agentRssMb.lookup agent).getD 1200)
    weight := i.limits.modelWeight pool args.model
    agentCap := cap.1
    underPressure := cap.2
    ownAccountCap := account ≠ "default" ∨
      (((i.limits.accountCaps.lookup pool).getD []).lookup account).isSome
    maxTotal := orElse args.maxTotal (profile i args).operatingCap }

theorem demand_rssMb_pos (i : Installation) (pressure : List PressureEntry)
    (args : AcquireArgs) : 0 < (demand i pressure args).rssMb := by
  show 0 < (args.memMb.filter (· ≠ 0)).getD ((i.limits.agentRssMb.lookup _).getD 1200)
  cases hmem : args.memMb.filter (· ≠ 0) with
  | some rss =>
    rw [Option.filter_eq_some_iff] at hmem
    have hne : rss ≠ 0 := by simpa using hmem.2
    exact Nat.pos_of_ne_zero hne
  | none =>
    cases hrss : i.limits.agentRssMb.lookup _ with
    | some rss => exact i.limits.rss_pos _ (mem_of_lookup_eq_some hrss)
    | none => exact Nat.succ_pos _

/-! ### The ceilings -/

/-- `lane_max_total`. -/
def Lane.maxTotal (lane : Lane) (maxTotal rawRamCeiling : ℤ) : ℤ :=
  match lane with
  | .bulk => max 1 (maxTotal - 3)
  | .normal => maxTotal
  | .critical => min (maxTotal + 2) rawRamCeiling

/-- `lane_agent_cap`. -/
def Lane.agentCap (lane : Lane) (agentCap : ℤ) (underPressure : Bool) : ℤ :=
  match lane with
  | .bulk => if agentCap ≤ 0 then 0 else max 1 (agentCap - 1)
  | .normal => agentCap
  | .critical => if underPressure then agentCap else agentCap + 2

/-- `max(0, ram_mb - controller_reserve_mb)`. -/
def Profile.rssBudget (p : Profile) : ℤ := max 0 (p.ramMb - p.reserveMb)

/-- The number of active leases. -/
def CapacityState.workers (s : CapacityState) : ℕ := s.activeLeases.length

/-- The weight active on a vendor and account. -/
def Host.accountWeight (h : Host) (s : CapacityState) (vendor account : String) : ℚ :=
  ((s.activeLeases.filter fun l => l.vendor = vendor ∧ h.leaseAccount l = account).map
    CapacityLease.weight).sum

/-- The memory of the active leases. -/
def CapacityState.totalRss (s : CapacityState) : ℕ := (s.activeLeases.map CapacityLease.memMb).sum

/-- Why the active leases leave no room for the demand, if they do not. -/
def Host.fullReason (h : Host) (p : Profile) (d : Demand) (lane : Lane) (s : CapacityState) :
    Option String :=
  if lane.maxTotal d.maxTotal p.rawRamCeiling ≤ s.workers then some "machine_worker_cap"
  else if (lane.agentCap d.agentCap d.underPressure : ℚ) <
      h.accountWeight s d.pool d.account + d.weight then
    some (if d.underPressure then "adaptive_rate_pressure"
      else if d.ownAccountCap then "account_worker_cap" else "agent_worker_cap")
  else if p.ramMb ≠ 0 ∧ p.rssBudget < s.totalRss + d.rssMb then some "rss_budget"
  else none

/-! ### Acquiring -/

/-- What `cmd_acquire` answers. -/
inductive Decision
  | error (reason : String)
  | wait (reason : String)
  | allow (lease : CapacityLease)
deriving DecidableEq

/-- `cooldown_for`. -/
def CapacityState.cooldownFor (s : CapacityState) (agent account : String) : Option Cooldown :=
  let accountCooldown := if strip account ≠ "" ∧ strip account ≠ "default" then
    KeyedTable.get? s.cooldowns (capPool (normalizeAgent agent) ++ "/" ++ strip account) else none
  (accountCooldown.or (KeyedTable.get? s.cooldowns agent)).or
    (KeyedTable.get? s.cooldowns (String.ofList (agent.toList.takeWhile (· ≠ '-'))))

/-- The identity of a role's pid, when its start token can be read. -/
def Host.processIdentity (h : Host) (pid : Option ℤ) : Option ProcessIdentity :=
  pid.bind fun p => (h.processStartToken p).map fun token => ⟨some p, token⟩

/-- The lease a granted request gets. -/
def Host.grantedLease (h : Host) (args : AcquireArgs) (d : Demand) : CapacityLease where
  leaseId := (given args.leaseId).getD args.freshId
  dispatchId := args.dispatchId
  state := "active"
  machineId := some h.machineId
  leaseSchema := some leaseSchemaV2
  agent := d.agent
  account := d.account
  capacityWeight := some d.weight
  memMb := d.rssMb
  launchState := some "reserved"
  workerPid := args.workerPid
  workerIdentity := h.processIdentity args.workerPid
  controllerPid := args.controllerPid
  controllerIdentity := h.processIdentity args.controllerPid
  claimantPid := some args.callerPid
  claimantIdentity := h.processIdentity (some args.callerPid)
  reservedAt := some h.now
  reservationDeadlineAt := some (h.now + spawningReservation)
  startedAt := some h.now
  expiresAt := some (h.now + args.ttl)

/-- `data["leases"][lease_id] = lease`. -/
def CapacityState.put (s : CapacityState) (lease : CapacityLease) : CapacityState :=
  { s with leases := KeyedTable.set s.leases lease }

/-- The state the ceilings are checked against: a full machine reclaims its stale leases
first. -/
def Host.roomState (h : Host) (p : Profile) (d : Demand) (lane : Lane) (s : CapacityState) :
    CapacityState :=
  if h.fullReason p d lane s = none then s
  else
    let reclaimed := h.reclaimStaleLeases s "expired" "capacity_backstop" false
    if reclaimed.1 = [] then s else reclaimed.2

/-- `cmd_acquire`: the decision, and the state that is saved. -/
def Host.cmdAcquire (h : Host) (i : Installation) (pressure : List PressureEntry)
    (args : AcquireArgs) (lane : Lane) (s : CapacityState) : Decision × CapacityState :=
  let p := profile i args
  let d := demand i pressure args
  if legacyAgentHandles.lookup d.agent ≠ none then (.error "agent is retired", s)
  else
    let pruned := h.pruneState s
    match pruned.cooldownFor d.agent d.account with
    | some cooldown => (.wait ("cooldown:" ++ cooldown.reason), s)
    | none =>
      let room := h.roomState p d lane pruned
      match h.fullReason p d lane room with
      | some reason => (.wait reason, s)
      | none =>
        let lease := h.grantedLease args d
        (.allow lease, room.put lease)

/-- `cmd_acquire` answers allow. -/
def Host.Allows (h : Host) (i : Installation) (pressure : List PressureEntry)
    (args : AcquireArgs) (lane : Lane) (s : CapacityState) : Prop :=
  ∃ lease s', h.cmdAcquire i pressure args lane s = (.allow lease, s')

/-! ### Room -/

/-- The active leases leave room for the demand on a lane. -/
structure Host.HasRoom (h : Host) (p : Profile) (d : Demand) (lane : Lane) (s : CapacityState) :
    Prop where
  workers : s.workers < lane.maxTotal d.maxTotal p.rawRamCeiling
  weight : h.accountWeight s d.pool d.account + d.weight ≤
    lane.agentCap d.agentCap d.underPressure
  rss : p.ramMb ≠ 0 → (s.totalRss + d.rssMb : ℤ) ≤ p.rssBudget

theorem Host.fullReason_eq_none : h.fullReason p d lane s = none ↔ h.HasRoom p d lane s := by
  unfold Host.fullReason
  constructor
  · intro hnone
    split at hnone
    · cases hnone
    · rename_i hworkers
      split at hnone
      · cases hnone
      · rename_i hweight
        split at hnone
        · cases hnone
        · rename_i hrss
          refine ⟨not_le.mp hworkers, not_lt.mp hweight, fun hram => ?_⟩
          exact not_lt.mp fun hlt => hrss ⟨hram, hlt⟩
  · intro hroom
    rw [if_neg (not_le.mpr hroom.workers), if_neg (not_lt.mpr hroom.weight), if_neg]
    rintro ⟨hram, hlt⟩
    exact absurd (hroom.rss hram) (not_le.mpr hlt)

theorem Host.allows_iff :
    h.Allows i pressure args lane s ↔
      legacyAgentHandles.lookup (demand i pressure args).agent = none ∧
      (h.pruneState s).cooldownFor (demand i pressure args).agent
        (demand i pressure args).account = none ∧
      h.HasRoom (profile i args) (demand i pressure args) lane
        (h.roomState (profile i args) (demand i pressure args) lane (h.pruneState s)) := by
  unfold Host.Allows Host.cmdAcquire
  simp only
  constructor
  · rintro ⟨lease, s', hallow⟩
    split at hallow
    · cases hallow
    · rename_i hlegacy
      split at hallow
      · cases hallow
      · rename_i hcooldown
        split at hallow
        · cases hallow
        · rename_i hfull
          exact ⟨not_not.mp hlegacy, hcooldown, Host.fullReason_eq_none.mp hfull⟩
  · rintro ⟨hlegacy, hcooldown, hroom⟩
    rw [if_neg (not_not.mpr hlegacy), hcooldown]
    simp only [Host.fullReason_eq_none.mpr hroom]
    exact ⟨_, _, rfl⟩

theorem Host.cmdAcquire_allow {s' : CapacityState} {lease : CapacityLease}
    (hallow : h.cmdAcquire i pressure args lane s = (.allow lease, s')) :
    s' = (h.roomState (profile i args) (demand i pressure args) lane (h.pruneState s)).put
      (h.grantedLease args (demand i pressure args)) := by
  obtain ⟨hlegacy, hcooldown, hroom⟩ := Host.allows_iff.mp ⟨lease, s', hallow⟩
  unfold Host.cmdAcquire at hallow
  simp only at hallow
  rw [if_neg (not_not.mpr hlegacy), hcooldown] at hallow
  simp only [Host.fullReason_eq_none.mpr hroom] at hallow
  exact (congrArg Prod.snd hallow).symm

/-- Where room on one lane is room on another, so it is after the reclaim in the middle. -/
theorem Host.hasRoom_roomState_mono {low high : Lane}
    (hmono : ∀ s, h.HasRoom p d low s → h.HasRoom p d high s)
    (hlow : h.HasRoom p d low (h.roomState p d low s)) :
    h.HasRoom p d high (h.roomState p d high s) := by
  by_cases hhigh : h.fullReason p d high s = none
  · unfold Host.roomState
    rw [if_pos hhigh]
    exact Host.fullReason_eq_none.mp hhigh
  · -- Neither lane has room before the reclaim, so both look at the same state after it.
    have hfull : h.fullReason p d low s ≠ none := fun hnone =>
      hhigh (Host.fullReason_eq_none.mpr (hmono s (Host.fullReason_eq_none.mp hnone)))
    have hsame : h.roomState p d high s = h.roomState p d low s := by
      unfold Host.roomState
      rw [if_neg hhigh, if_neg hfull]
    rw [hsame]
    exact hmono _ hlow

/-! ### What a granted lease adds -/

theorem CapacityState.activeLeases_put (hactive : l.Active) :
    (s.put l).activeLeases = (s.activeLeases.filter fun r => r.leaseId ≠ l.leaseId) ++ [l] := by
  unfold CapacityState.activeLeases CapacityState.put
  rw [KeyedTable.rows_set, List.filter_append, List.filter_filter, List.filter_filter]
  congr 1
  · exact List.filter_congr fun r _ => Bool.and_comm _ _
  · rw [List.filter_singleton, decide_eq_true hactive]
    rfl

theorem CapacityState.workers_put (hactive : l.Active) :
    (s.put l).workers ≤ s.workers + 1 := by
  unfold CapacityState.workers
  rw [CapacityState.activeLeases_put hactive, List.length_append, List.length_singleton]
  have hkept := List.length_filter_le (fun r => decide (r.leaseId ≠ l.leaseId)) s.activeLeases
  omega

theorem CapacityState.totalRss_put (hactive : l.Active) :
    (s.put l).totalRss ≤ s.totalRss + l.memMb := by
  unfold CapacityState.totalRss
  rw [CapacityState.activeLeases_put hactive, List.map_append, List.sum_append]
  have hkept : ((s.activeLeases.filter fun r => r.leaseId ≠ l.leaseId).map
      CapacityLease.memMb).sum ≤ (s.activeLeases.map CapacityLease.memMb).sum :=
    (List.filter_sublist.map _).sum_le_sum fun _ _ => Nat.zero_le _
  simpa using hkept

theorem CapacityLease.weight_pos (l : CapacityLease) : 0 < l.weight := by
  unfold CapacityLease.weight
  cases hweight : l.capacityWeight.filter (0 < ·) with
  | none => exact one_pos
  | some weight =>
    rw [Option.filter_eq_some_iff] at hweight
    exact of_decide_eq_true hweight.2

/-- The leases billed to a vendor and account. -/
def Host.billed (h : Host) (s : CapacityState) (vendor account : String) : List CapacityLease :=
  s.activeLeases.filter fun l => l.vendor = vendor ∧ h.leaseAccount l = account

theorem Host.accountWeight_eq (h : Host) (s : CapacityState) (vendor account : String) :
    h.accountWeight s vendor account = ((h.billed s vendor account).map
      CapacityLease.weight).sum := rfl

theorem Host.accountWeight_nonneg (h : Host) (s : CapacityState) (vendor account : String) :
    0 ≤ h.accountWeight s vendor account := by
  rw [Host.accountWeight_eq]
  refine List.sum_nonneg fun w hw => ?_
  obtain ⟨l, -, rfl⟩ := List.mem_map.mp hw
  exact l.weight_pos.le

theorem Host.accountWeight_put (hactive : l.Active) (vendor account : String) :
    h.accountWeight (s.put l) vendor account ≤ h.accountWeight s vendor account + l.weight := by
  have hbilled : (h.billed (s.put l) vendor account).Sublist
      (h.billed s vendor account ++ [l]) := by
    unfold Host.billed
    rw [CapacityState.activeLeases_put hactive, List.filter_append]
    exact (List.filter_sublist.filter _).append List.filter_sublist
  calc h.accountWeight (s.put l) vendor account
      ≤ ((h.billed s vendor account ++ [l]).map CapacityLease.weight).sum := by
        refine (hbilled.map _).sum_le_sum fun w hw => ?_
        obtain ⟨r, -, rfl⟩ := List.mem_map.mp hw
        exact r.weight_pos.le
    _ = h.accountWeight s vendor account + l.weight := by
        rw [List.map_append, List.sum_append, Host.accountWeight_eq]
        simp

/-! ### Safety and monotonicity -/

/-- The active leases are within the ceilings of the machine, the lane and the account. -/
structure Host.Within (h : Host) (p : Profile) (d : Demand) (lane : Lane) (s : CapacityState) :
    Prop where
  workers_raw : s.workers ≤ p.rawRamCeiling
  workers_lane : s.workers ≤ lane.maxTotal d.maxTotal p.rawRamCeiling
  rss : p.ramMb ≠ 0 → (s.totalRss : ℤ) ≤ p.ramMb - p.reserveMb
  weight : h.accountWeight s d.pool d.account ≤ lane.agentCap d.agentCap d.underPressure

/-- Every grant in a state stays within the ceilings, and a lane is allowed when a lower
one is. -/
structure Host.AdmissionSafe (h : Host) (i : Installation) (pressure : List PressureEntry)
    (args : AcquireArgs) (s : CapacityState) : Prop where
  within : ∀ lane lease s', h.cmdAcquire i pressure args lane s = (.allow lease, s') →
    h.Within (profile i args) (demand i pressure args) lane s'
  normal_of_bulk : h.Allows i pressure args .bulk s → h.Allows i pressure args .normal s
  critical_of_normal : h.Allows i pressure args .normal s → h.Allows i pressure args .critical s

/-- The demand fits a lane of an empty machine, but for the number of workers. -/
structure Demand.FitsAlone (d : Demand) (p : Profile) (lane : Lane) : Prop where
  weight : d.weight ≤ lane.agentCap d.agentCap d.underPressure
  rss : p.ramMb ≠ 0 → (d.rssMb : ℤ) ≤ p.rssBudget

/-- The overrides that keep admission safe: the total is where the profile would clip it
to, or the request is refused on the lanes the total is wrong for. -/
def SafeOverrides (i : Installation) (pressure : List PressureEntry) (args : AcquireArgs) :
    Prop :=
  let p := profile i args
  let d := demand i pressure args
  (1 ≤ d.maxTotal ∧ d.maxTotal ≤ p.rawRamCeiling) ∨
    legacyAgentHandles.lookup d.agent ≠ none ∨
    (p.rawRamCeiling < d.maxTotal ∧ ¬ d.FitsAlone p .normal) ∨
    (d.maxTotal < 1 ∧ ¬ d.FitsAlone p .bulk)

theorem demand_weight_pos (i : Installation) (pressure : List PressureEntry)
    (args : AcquireArgs) : 0 < (demand i pressure args).weight :=
  i.limits.modelWeight_pos _ _

theorem Host.HasRoom.fitsAlone (hroom : h.HasRoom p d lane s) : d.FitsAlone p lane := by
  constructor
  · have hweight := hroom.weight
    have hnonneg := h.accountWeight_nonneg s d.pool d.account
    linarith
  · intro hram
    have hrss := hroom.rss hram
    omega

theorem Lane.bulk_agentCap_le {agentCap : ℤ} {underPressure : Bool} {weight : ℚ}
    (hpos : 0 < weight) (hfits : weight ≤ Lane.bulk.agentCap agentCap underPressure) :
    Lane.bulk.agentCap agentCap underPressure ≤ Lane.normal.agentCap agentCap underPressure := by
  show (if agentCap ≤ 0 then 0 else max 1 (agentCap - 1)) ≤ agentCap
  by_cases hcap : agentCap ≤ 0
  · -- The cap is zero, and no weight fits.
    have hzero : Lane.bulk.agentCap agentCap underPressure = 0 := if_pos hcap
    rw [hzero, Int.cast_zero] at hfits
    exact absurd hfits (not_le.mpr hpos)
  · rw [if_neg hcap]
    omega

theorem Lane.normal_agentCap_le (agentCap : ℤ) (underPressure : Bool) :
    Lane.normal.agentCap agentCap underPressure ≤ Lane.critical.agentCap agentCap underPressure := by
  show agentCap ≤ if underPressure then agentCap else agentCap + 2
  split <;> omega

theorem Host.HasRoom.normal_of_bulk (hpos : 0 < d.weight) (hone : 1 ≤ d.maxTotal)
    (hroom : h.HasRoom p d .bulk s) :
    h.HasRoom p d .normal s := by
  refine ⟨?_, ?_, hroom.rss⟩
  · have hworkers : (s.workers : ℤ) < max 1 (d.maxTotal - 3) := hroom.workers
    show (s.workers : ℤ) < d.maxTotal
    omega
  · have hcap := Lane.bulk_agentCap_le hpos hroom.fitsAlone.weight
    exact hroom.weight.trans (by exact_mod_cast hcap)

/-- Room on the normal lane is room on the critical one, unless the total is above the raw
ceiling. -/
theorem Host.HasRoom.critical_of_normal (hraw : d.maxTotal ≤ p.rawRamCeiling)
    (hroom : h.HasRoom p d .normal s) : h.HasRoom p d .critical s := by
  refine ⟨?_, ?_, hroom.rss⟩
  · have hworkers : (s.workers : ℤ) < d.maxTotal := hroom.workers
    show (s.workers : ℤ) < min (d.maxTotal + 2) p.rawRamCeiling
    omega
  · have hcap := Lane.normal_agentCap_le d.agentCap d.underPressure
    exact hroom.weight.trans (by exact_mod_cast hcap)

theorem Host.HasRoom.maxTotal_le (hsafe : SafeOverrides i pressure args)
    (hagent : legacyAgentHandles.lookup (demand i pressure args).agent = none)
    (hroom : h.HasRoom (profile i args) (demand i pressure args) lane s) :
    lane.maxTotal (demand i pressure args).maxTotal (profile i args).rawRamCeiling ≤
      (profile i args).rawRamCeiling := by
  have hraw := one_le_rawRamCeiling i args
  have hpos := demand_weight_pos i pressure args
  rcases hsafe with ⟨hone, hle⟩ | hretired | ⟨habove, hnofit⟩ | ⟨hbelow, hnofit⟩
  · cases lane with
    | bulk => exact max_le hraw (by omega)
    | normal => exact hle
    | critical => exact min_le_right _ _
  · exact absurd hagent hretired
  · cases lane with
    | bulk => exact absurd (hroom.normal_of_bulk hpos (by omega)).fitsAlone hnofit
    | normal => exact absurd hroom.fitsAlone hnofit
    | critical => exact min_le_right _ _
  · cases lane with
    | bulk => exact absurd hroom.fitsAlone hnofit
    | normal =>
      have hworkers : (s.workers : ℤ) < (demand i pressure args).maxTotal := hroom.workers
      omega
    | critical => exact min_le_right _ _

theorem Host.HasRoom.within_put
    (hroom : h.HasRoom (profile i args) (demand i pressure args) lane s)
    (hle : lane.maxTotal (demand i pressure args).maxTotal (profile i args).rawRamCeiling ≤
      (profile i args).rawRamCeiling) :
    h.Within (profile i args) (demand i pressure args) lane
      (s.put (h.grantedLease args (demand i pressure args))) := by
  have hactive : (h.grantedLease args (demand i pressure args)).Active := rfl
  have hworkers := CapacityState.workers_put (s := s) hactive
  have hbefore := hroom.workers
  refine ⟨?_, ?_, fun hram => ?_, ?_⟩
  · omega
  · omega
  · have htotal : (s.put (h.grantedLease args (demand i pressure args))).totalRss ≤
        s.totalRss + (demand i pressure args).rssMb := CapacityState.totalRss_put hactive
    have hrss := hroom.rss hram
    have hpos := demand_rssMb_pos i pressure args
    unfold Profile.rssBudget at hrss
    omega
  · have hadded : h.accountWeight (s.put (h.grantedLease args (demand i pressure args)))
        (demand i pressure args).pool (demand i pressure args).account ≤
        h.accountWeight s (demand i pressure args).pool (demand i pressure args).account +
          (h.grantedLease args (demand i pressure args)).weight :=
      Host.accountWeight_put hactive _ _
    have hweight : (h.grantedLease args (demand i pressure args)).weight =
        (demand i pressure args).weight := by
      show ((some (demand i pressure args).weight).filter (0 < ·)).getD 1 = _
      rw [Option.filter_some, if_pos (decide_eq_true (demand_weight_pos i pressure args))]
      rfl
    rw [hweight] at hadded
    exact hadded.trans hroom.weight

theorem Host.admissionSafe_of_safeOverrides (hsafe : SafeOverrides i pressure args)
    (s : CapacityState) :
    h.AdmissionSafe i pressure args s := by
  have hpos := demand_weight_pos i pressure args
  constructor
  · intro lane lease s' hallow
    obtain ⟨hagent, -, hroom⟩ := Host.allows_iff.mp ⟨lease, s', hallow⟩
    rw [Host.cmdAcquire_allow hallow]
    exact hroom.within_put (hroom.maxTotal_le hsafe hagent)
  · intro hbulk
    obtain ⟨hagent, hcooldown, hroom⟩ := Host.allows_iff.mp hbulk
    refine Host.allows_iff.mpr ⟨hagent, hcooldown, Host.hasRoom_roomState_mono ?_ hroom⟩
    intro room hlow
    refine hlow.normal_of_bulk hpos ?_
    rcases hsafe with ⟨hone, -⟩ | hretired | ⟨habove, -⟩ | ⟨-, hnofit⟩
    · exact hone
    · exact absurd hagent hretired
    · exact (one_le_rawRamCeiling i args).trans habove.le
    · exact absurd hlow.fitsAlone hnofit
  · intro hnormal
    obtain ⟨hagent, hcooldown, hroom⟩ := Host.allows_iff.mp hnormal
    refine Host.allows_iff.mpr ⟨hagent, hcooldown, Host.hasRoom_roomState_mono ?_ hroom⟩
    intro room hlow
    exact hlow.critical_of_normal (hlow.maxTotal_le hsafe hagent)

/-! ### A crowded machine -/

/-- An account that is not the given one. -/
def otherAccount (account : String) : String := if account = "a" then "b" else "a"

/-- An idle lease of another account, with an id no shorter than `base`. -/
def idleLease (account : String) (base k : ℕ) : CapacityLease where
  leaseId := String.ofList (List.replicate (base + k) 'x')
  state := "active"
  account := otherAccount account

/-- A machine with `n` idle leases. -/
def crowd (account : String) (base n : ℕ) : CapacityState where
  machineId := none
  leases := ⟨(List.range n).map (idleLease account base), by
    rw [List.pairwise_map]
    refine List.nodup_range.imp fun {j k} hne heq => hne ?_
    have hlength := congrArg (fun text : String => text.toList.length) heq
    simp only [idleLease, String.toList_ofList, List.length_replicate] at hlength
    omega⟩
  cooldowns := .empty

theorem leaseAccount_idleLease (h : Host) (account : String) (base k : ℕ) :
    h.leaseAccount (idleLease account base k) ≠ account := by
  have hnamed : namedAccount (otherAccount account) = some (otherAccount account) := by
    unfold otherAccount
    split <;> decide
  unfold Host.leaseAccount
  show (match (namedAccount (otherAccount account)).or _ with
    | some account => account
    | none => _) ≠ account
  rw [hnamed]
  show otherAccount account ≠ account
  unfold otherAccount
  split
  · rename_i heq
    rw [heq]
    decide
  · rename_i hne
    exact Ne.symm hne

theorem activeLeases_crowd (account : String) (base n : ℕ) :
    (crowd account base n).activeLeases = (List.range n).map (idleLease account base) := by
  refine List.filter_eq_self.mpr fun l hl => ?_
  obtain ⟨k, -, rfl⟩ := List.mem_map.mp hl
  rfl

theorem workers_crowd (account : String) (base n : ℕ) : (crowd account base n).workers = n := by
  unfold CapacityState.workers
  rw [activeLeases_crowd, List.length_map, List.length_range]

theorem totalRss_crowd (account : String) (base n : ℕ) :
    (crowd account base n).totalRss = 0 := by
  unfold CapacityState.totalRss
  rw [activeLeases_crowd, List.map_map]
  refine List.sum_eq_zero fun m hm => ?_
  obtain ⟨k, -, rfl⟩ := List.mem_map.mp hm
  rfl

theorem accountWeight_crowd (h : Host) (vendor account : String) (base n : ℕ) :
    h.accountWeight (crowd account base n) vendor account = 0 := by
  have hnone : h.billed (crowd account base n) vendor account = [] := by
    refine List.filter_eq_nil_iff.mpr fun l hl => ?_
    rw [activeLeases_crowd] at hl
    obtain ⟨k, -, rfl⟩ := List.mem_map.mp hl
    have hother := leaseAccount_idleLease h account base k
    rw [decide_eq_true_eq]
    exact fun hbilled => hother hbilled.2
  rw [Host.accountWeight_eq, hnone]
  rfl

theorem pruneState_crowd (h : Host) (account : String) (base n : ℕ) :
    h.pruneState (crowd account base n) = crowd account base n := by
  have hexpire : ∀ l ∈ (crowd account base n).leases.rows,
      h.expire (crowd account base n) l = l ∧ h.Recent l := by
    intro l hl
    obtain ⟨k, -, rfl⟩ := List.mem_map.mp hl
    refine ⟨if_neg ?_, CapacityLease.Active.recent rfl⟩
    rintro ⟨⟨t, ht, -⟩, -⟩
    cases ht
  have hrows : ((crowd account base n).leases.rows.map (h.expire (crowd account base n))).filter
      h.Recent = (crowd account base n).leases.rows := by
    rw [List.map_congr_left fun l hl => (hexpire l hl).1, List.map_id'']
    · exact List.filter_eq_self.mpr fun l hl => decide_eq_true (hexpire l hl).2
    · exact fun _ => rfl
  unfold Host.pruneState
  congr 1
  · exact Table.ext hrows

theorem Demand.FitsAlone.hasRoom_crowd (hfits : d.FitsAlone p lane) (base : ℕ) {n : ℕ}
    (hn : n < lane.maxTotal d.maxTotal p.rawRamCeiling) :
    h.HasRoom p d lane (crowd d.account base n) := by
  refine ⟨?_, ?_, fun hram => ?_⟩
  · rw [workers_crowd]
    exact hn
  · rw [accountWeight_crowd, zero_add]
    exact hfits.weight
  · rw [totalRss_crowd, Nat.cast_zero, zero_add]
    exact hfits.rss hram

theorem Demand.FitsAlone.cmdAcquire_crowd
    (hagent : legacyAgentHandles.lookup (demand i pressure args).agent = none)
    (hfits : (demand i pressure args).FitsAlone (profile i args) lane) (base : ℕ) {n : ℕ}
    (hn : n < lane.maxTotal (demand i pressure args).maxTotal (profile i args).rawRamCeiling) :
    h.cmdAcquire i pressure args lane (crowd (demand i pressure args).account base n) =
      (.allow (h.grantedLease args (demand i pressure args)),
        (crowd (demand i pressure args).account base n).put
          (h.grantedLease args (demand i pressure args))) := by
  have hroom := Host.fullReason_eq_none.mpr
    (hfits.hasRoom_crowd (h := h) base hn)
  unfold Host.cmdAcquire
  simp only
  rw [if_neg (not_not.mpr hagent), pruneState_crowd]
  have hcooldown : (crowd (demand i pressure args).account base n).cooldownFor
      (demand i pressure args).agent (demand i pressure args).account = none := by
    unfold CapacityState.cooldownFor
    simp only
    split <;> rfl
  have hsame : h.roomState (profile i args) (demand i pressure args) lane
      (crowd (demand i pressure args).account base n) =
      crowd (demand i pressure args).account base n := if_pos hroom
  rw [hcooldown]
  simp only
  rw [hsame, hroom]

theorem workers_put_crowd {account : String} {base n : ℕ} (hactive : l.Active)
    (hid : l.leaseId.toList.length < base) :
    ((crowd account base n).put l).workers = n + 1 := by
  unfold CapacityState.workers
  rw [CapacityState.activeLeases_put hactive, activeLeases_crowd, List.filter_eq_self.mpr]
  · simp
  · intro r hr
    obtain ⟨k, -, rfl⟩ := List.mem_map.mp hr
    rw [decide_eq_true_eq]
    intro heq
    have hlength := congrArg (fun text : String => text.toList.length) heq
    simp only [idleLease, String.toList_ofList, List.length_replicate] at hlength
    omega

/-- **Admission is safe exactly under safe overrides.**  For a machine, a request and a
report of rate pressure, every grant in every state keeps the ceilings and the lanes are
monotone in every state, if and only if the total lies between 1 and the raw ceiling or
the request is refused by its own size on the lanes the total is wrong for. -/
theorem acquire_safe_iff (h : Host) (i : Installation) (pressure : List PressureEntry)
    (args : AcquireArgs) :
    (∀ s, h.AdmissionSafe i pressure args s) ↔ SafeOverrides i pressure args := by
  constructor
  · intro hall
    by_contra hunsafe
    simp only [SafeOverrides, not_or, not_and, not_not] at hunsafe
    obtain ⟨hrange, hagent, habove, hbelow⟩ := hunsafe
    by_cases hone : 1 ≤ (demand i pressure args).maxTotal
    · -- The total is above the raw ceiling: the normal lane fills the machine past it.
      have hraw : (profile i args).rawRamCeiling < (demand i pressure args).maxTotal :=
        not_le.mp (hrange hone)
      have hpos := one_le_rawRamCeiling i args
      have hcast : (((profile i args).rawRamCeiling.toNat : ℕ) : ℤ) =
          (profile i args).rawRamCeiling := Int.toNat_of_nonneg (by omega)
      have hid := Nat.lt_succ_self
        (h.grantedLease args (demand i pressure args)).leaseId.toList.length
      have hlane : ((profile i args).rawRamCeiling.toNat : ℤ) < Lane.normal.maxTotal
          (demand i pressure args).maxTotal (profile i args).rawRamCeiling := by
        rw [hcast]
        exact hraw
      have hallow := (habove hraw).cmdAcquire_crowd (h := h) hagent
        ((h.grantedLease args (demand i pressure args)).leaseId.toList.length + 1) hlane
      have hwithin := ((hall _).within _ _ _ hallow).workers_raw
      have hactive : (h.grantedLease args (demand i pressure args)).Active := rfl
      rw [workers_put_crowd hactive hid] at hwithin
      omega
    · -- The total is below 1: an empty machine lets bulk in and normal not.
      have hless : (demand i pressure args).maxTotal < 1 := not_le.mp hone
      have hlane : ((0 : ℕ) : ℤ) < Lane.bulk.maxTotal (demand i pressure args).maxTotal
          (profile i args).rawRamCeiling := by
        show ((0 : ℕ) : ℤ) < max 1 ((demand i pressure args).maxTotal - 3)
        omega
      have hallow := (hbelow hless).cmdAcquire_crowd (h := h) hagent 0 hlane
      obtain ⟨-, -, hroom⟩ := Host.allows_iff.mp ((hall _).normal_of_bulk ⟨_, _, hallow⟩)
      have hworkers : ((h.roomState (profile i args) (demand i pressure args) .normal
          (h.pruneState (crowd (demand i pressure args).account 0 0))).workers : ℤ) <
          (demand i pressure args).maxTotal := hroom.workers
      omega
  · intro hsafe s
    exact Host.admissionSafe_of_safeOverrides hsafe s

theorem Host.AdmissionSafe.workers_le (hsafe : h.AdmissionSafe i pressure args s)
    {lease : CapacityLease} (hallow : (h.cmdAcquire i pressure args lane s).1 = .allow lease) :
    (h.cmdAcquire i pressure args lane s).2.workers ≤ (profile i args).rawRamCeiling := by
  have heq : h.cmdAcquire i pressure args lane s =
      (.allow lease, (h.cmdAcquire i pressure args lane s).2) := by
    rw [← hallow]
  exact (hsafe.within lane lease _ heq).workers_raw

/-- `--max-total 2` on a machine with room for one: the normal lane grants a second lease. -/
theorem acquire_unsafe :
    let host : Host := ⟨100, "m", fun _ => some true, fun _ => none, fun _ => some true,
      fun _ => none, fun _ => none⟩
    let i : Installation := ⟨Limits.committed, 4096, none⟩
    let args : AcquireArgs := {
      agent := "codex", maxTotal := some 2, callerPid := 9, freshId := "l2" }
    let lease : CapacityLease := {
      leaseId := "l1", state := "active", agent := "codex", memMb := 386 }
    let s : CapacityState := ⟨some "m", ⟨[lease], by simp⟩, .empty⟩
    ¬ host.AdmissionSafe i [] args s := by
  intro host i args lease s hsafe
  have hallow : (host.cmdAcquire i [] args .normal s).1 =
      .allow (host.grantedLease args (demand i [] args)) := by decide +kernel
  have hworkers : ¬ ((host.cmdAcquire i [] args .normal s).2.workers : ℤ) ≤
      (profile i args).rawRamCeiling := by decide +kernel
  exact hworkers (hsafe.workers_le hallow)

end GoalFlight.Capacity
