import GoalFlight.Capacity.Budget
import Mathlib.Tactic.NormNum

/-!
# Capacity: the budget and the gate

The budget is meant to answer as the gate would.  Its headroom for an agent and account,
and the gate's, are each a cap less an active weight.  `budget_agrees_iff` says that the
two answers agree exactly when the weight of the request does not fall between the two
headrooms.

The headrooms differ when the built-in account caps apply to the one and not to the other, when
pressure names the agent and not its vendor, when the account is written with blanks around it,
and by what the rounding drops.
-/

namespace GoalFlight.Capacity

open Relational Rounding

/-! ### A request and its query -/

/-- An agent and an account, both named, and a model. -/
structure SlotQuery where
  agent : String
  account : String
  model : Option String
  agent_ne : agent ≠ ""
  account_ne : account ≠ ""

/-- The request for them, with no explicit caps. -/
def SlotQuery.args (q : SlotQuery) (base : AcquireArgs) : AcquireArgs :=
  { base with
    agent := q.agent
    account := some q.account
    model := q.model
    agentCap := none
    maxTotal := none }

/-- The pool of the agent. -/
def SlotQuery.pool (q : SlotQuery) : String := capPool (normalizeAgent q.agent)

section Query

variable (h : Host) (i : Installation) (pressure : List PressureEntry) (base : AcquireArgs)
  (q : SlotQuery) (s : CapacityState)

/-- The budget for them. -/
def Host.budgetFor : SlotBudget :=
  h.launchSlotBudget i pressure (q.args base) (some q.agent) (some q.account) q.model (some s)

/-- What the gate demands for them. -/
abbrev SlotQuery.demand : Demand := GoalFlight.Capacity.demand i pressure (q.args base)

/-- What the budget has left for them. -/
def Host.headroom : ℚ :=
  h.budgetHeadroom i.limits pressure (h.pruneState s).activeLeases q.pool q.account

/-- The memory suffices. -/
def Host.RssFits : Prop :=
  (profile i (q.args base)).ramMb ≠ 0 →
    ((h.pruneState s).totalRss + (q.demand i pressure base).rssMb : ℤ) ≤
      (profile i (q.args base)).rssBudget

/-- Neither the agent nor the account is cooling down. -/
def Host.NotCooling : Prop :=
  (h.pruneState s).cooldownFor (q.demand i pressure base).agent
    (q.demand i pressure base).account = none

/-- The reasons of a full machine, account, agent or provider. -/
def capReasons : List String :=
  ["machine_worker_cap", "account_worker_cap", "agent_worker_cap", "adaptive_rate_pressure"]

/-- **The budget agrees with the gate**: where it has a slot and the weight, the request is
not refused for a cap, and where the gate lets a request of weight 1 in without reclaiming,
it has a slot. -/
structure Host.BudgetAgrees : Prop where
  gate_of_budget : h.NotCooling i pressure base q s → h.RssFits i pressure base q s →
    ∀ slots remaining,
      (h.budgetFor i pressure base q s).agentRemaining = some slots → 1 ≤ slots →
      (h.budgetFor i pressure base q s).accountRemaining = some remaining →
      (h.budgetFor i pressure base q s).requestWeight ≤ remaining →
      ∀ reason ∈ capReasons,
        (h.cmdAcquire i pressure (q.args base) .normal s).1 ≠ .wait reason
  budget_of_gate : h.Allows i pressure (q.args base) .normal s →
    h.reclaimCandidates (h.pruneState s) false = [] →
    (h.budgetFor i pressure base q s).requestWeight = 1 →
    ∃ slots, (h.budgetFor i pressure base q s).agentRemaining = some slots ∧ 1 ≤ slots

/-- The condition: no request has a weight between what the budget has left and what the
gate has. -/
structure Host.BudgetAligned : Prop where
  enough : legacyAgentHandles.lookup (q.demand i pressure base).agent = none →
    h.NotCooling i pressure base q s → h.RssFits i pressure base q s →
    (h.pruneState s).workers < (profile i (q.args base)).operatingCap →
    1 ≤ h.headroom i pressure q s →
    (q.demand i pressure base).weight ≤ h.headroom i pressure q s →
    (q.demand i pressure base).weight ≤ (q.demand i pressure base).agentCap -
      h.accountWeight (h.pruned i pressure (q.args base) .normal s)
        (q.demand i pressure base).pool (q.demand i pressure base).account
  reach : legacyAgentHandles.lookup (q.demand i pressure base).agent = none →
    h.NotCooling i pressure base q s →
    h.HasRoom (profile i (q.args base)) (q.demand i pressure base) .normal (h.pruneState s) →
    h.reclaimCandidates (h.pruneState s) false = [] → (q.demand i pressure base).weight = 1 →
    1 ≤ h.headroom i pressure q s

end Query

/-! ### What the budget answers -/

section Answers

variable {h : Host} {i : Installation} {pressure : List PressureEntry} {base : AcquireArgs}
  {q : SlotQuery} {s : CapacityState}

theorem given_some {text : String} (hne : text ≠ "") : given (some text) = some text :=
  given_eq_some.mpr ⟨rfl, hne⟩

theorem Host.accountRemaining_budgetFor (h : Host) (i : Installation)
    (pressure : List PressureEntry) (base : AcquireArgs) (q : SlotQuery) (s : CapacityState) :
    ∃ remaining, (h.budgetFor i pressure base q s).accountRemaining = some remaining ∧
      (remaining = max 0 (h.headroom i pressure q s) ∨
        remaining = h.headroom i pressure q s) := by
  unfold Host.budgetFor Host.launchSlotBudget
  simp only [given_some q.agent_ne, given_some q.account_ne]
  refine ⟨_, rfl, ?_⟩
  have hkeys : (h.accountCapacityRows i.limits pressure (h.pruneState s).activeLeases).map
      Prod.fst = h.rowKeys i.limits (h.pruneState s).activeLeases := by
    unfold Host.accountCapacityRows
    rw [List.map_map]
    exact List.map_id' _
  have hlookup : ∀ key, (h.accountCapacityRows i.limits pressure
      (h.pruneState s).activeLeases).lookup key =
      if key ∈ h.rowKeys i.limits (h.pruneState s).activeLeases then
        some (h.capacityRow i.limits pressure (h.pruneState s).activeLeases key) else none :=
    lookup_map_self _ _
  rw [hkeys]
  by_cases hkey : rowKey q.pool q.account ∈ h.rowKeys i.limits (h.pruneState s).activeLeases
  · left
    have hkey' := hkey
    unfold SlotQuery.pool at hkey'
    rw [if_pos hkey', hlookup, if_pos hkey']
    show (h.capacityRow _ _ _ (rowKey q.pool q.account)).remaining = _
    rw [Host.capacityRow_remaining]
    unfold Host.headroom Host.budgetHeadroom Host.budgetCap
    rw [if_pos hkey]
  · right
    have hkey' := hkey
    unfold SlotQuery.pool at hkey'
    rw [if_neg hkey', List.lookup_append, hlookup, if_neg hkey', Option.none_or,
      List.lookup_cons, beq_self_eq_true]
    show ((requestedRow i.limits pressure q.pool q.account).cap : ℚ) = _
    unfold Host.headroom Host.budgetHeadroom Host.budgetCap
    rw [if_neg hkey, Host.keyWeight_of_notMem hkey, roundDigits_zero, sub_zero]

theorem Host.requestWeight_budgetFor :
    (h.budgetFor i pressure base q s).requestWeight = (q.demand i pressure base).weight := by
  unfold Host.budgetFor Host.launchSlotBudget
  simp only [given_some q.agent_ne]
  rfl

theorem Host.weight_le_accountRemaining :
    (∃ remaining, (h.budgetFor i pressure base q s).accountRemaining = some remaining ∧
      (h.budgetFor i pressure base q s).requestWeight ≤ remaining) ↔
      (q.demand i pressure base).weight ≤ h.headroom i pressure q s := by
  have hpos := demand_weight_pos i pressure (q.args base)
  rw [Host.requestWeight_budgetFor]
  obtain ⟨remaining, hremaining, heq⟩ := h.accountRemaining_budgetFor i pressure base q s
  rw [hremaining]
  simp only [Option.some.injEq, exists_eq_left']
  rcases heq with rfl | rfl
  · rw [le_max_iff]
    exact or_iff_right (not_le.mpr hpos)
  · exact Iff.rfl

theorem one_le_truncate {x : ℚ} : 1 ≤ truncate x ↔ 1 ≤ x := by
  unfold truncate
  split
  · rw [Int.le_floor, Int.cast_one]
  · rename_i hneg
    have hlt := not_le.mp hneg
    constructor
    · intro hone
      have hceil : ⌈x⌉ ≤ 0 := Int.ceil_le.mpr (by exact_mod_cast hlt.le)
      omega
    · intro hone
      exact absurd (hone.trans hlt.le) (by norm_num)

theorem Host.one_le_agentRemaining :
    (∃ slots, (h.budgetFor i pressure base q s).agentRemaining = some slots ∧ 1 ≤ slots) ↔
      ((h.pruneState s).workers : ℤ) < (profile i (q.args base)).operatingCap ∧
        1 ≤ h.headroom i pressure q s := by
  obtain ⟨remaining, hremaining, heq⟩ := h.accountRemaining_budgetFor i pressure base q s
  have hslots : (h.budgetFor i pressure base q s).agentRemaining =
      some (min (max 0 ((profile i (q.args base)).operatingCap -
        (h.pruneState s).activeLeases.length)) (truncate remaining)) := by
    unfold Host.budgetFor Host.launchSlotBudget at hremaining ⊢
    simp only [given_some q.agent_ne, given_some q.account_ne] at hremaining ⊢
    rw [Option.some.inj hremaining]
    rfl
  rw [hslots]
  simp only [Option.some.injEq, exists_eq_left', le_min_iff, one_le_truncate]
  have hone : 1 ≤ remaining ↔ 1 ≤ h.headroom i pressure q s := by
    rcases heq with rfl | rfl
    · rw [le_max_iff]
      exact or_iff_right (by norm_num)
    · exact Iff.rfl
  rw [hone]
  refine and_congr_left fun _ => ?_
  show 1 ≤ max 0 (_ - ((h.pruneState s).workers : ℤ)) ↔ _
  omega

end Answers

/-! ### What the gate answers -/

section Gate

variable {h : Host} {i : Installation} {pressure : List PressureEntry} {base : AcquireArgs}
  {q : SlotQuery} {s : CapacityState}

theorem Host.workers_pruned_le (h : Host) (i : Installation) (pressure : List PressureEntry)
    (args : AcquireArgs) (lane : Lane) (s : CapacityState) :
    (h.pruned i pressure args lane s).workers ≤ (h.pruneState s).workers :=
  (h.activeLeases_pruned_sublist i pressure args lane s).length_le

theorem Host.cmdAcquire_wait_iff {args : AcquireArgs} {lane : Lane} {reason : String}
    (hagent : legacyAgentHandles.lookup (demand i pressure args).agent = none)
    (hcooldown : (h.pruneState s).cooldownFor (demand i pressure args).agent
      (demand i pressure args).account = none) :
    (h.cmdAcquire i pressure args lane s).1 = .wait reason ↔
      h.fullReason (profile i args) (demand i pressure args) lane
        (h.pruned i pressure args lane s) = some reason := by
  unfold Host.cmdAcquire Host.pruned
  simp only
  rw [if_neg (not_not.mpr hagent), hcooldown]
  simp only
  split
  · rename_i found hfound
    rw [hfound]
    simp
  · rename_i hnone
    rw [hnone]
    simp

/-- Where the machine has a slot, the gate refuses for a cap exactly when the account lacks
the weight. -/
theorem Host.refused_for_cap_iff
    (hagent : legacyAgentHandles.lookup (q.demand i pressure base).agent = none)
    (hcooling : h.NotCooling i pressure base q s)
    (hworkers : (h.pruneState s).workers < (profile i (q.args base)).operatingCap) :
    (∃ reason ∈ capReasons, (h.cmdAcquire i pressure (q.args base) .normal s).1 = .wait reason) ↔
      ((q.demand i pressure base).agentCap : ℚ) -
        h.accountWeight (h.pruned i pressure (q.args base) .normal s)
          (q.demand i pressure base).pool (q.demand i pressure base).account <
        (q.demand i pressure base).weight := by
  have hslot : ¬ Lane.normal.maxTotal (q.demand i pressure base).maxTotal
      (profile i (q.args base)).rawRamCeiling ≤
      (h.pruned i pressure (q.args base) .normal s).workers := by
    have hle := h.workers_pruned_le i pressure (q.args base) .normal s
    show ¬ (profile i (q.args base)).operatingCap ≤ _
    omega
  simp only [Host.cmdAcquire_wait_iff hagent hcooling]
  unfold Host.fullReason
  rw [if_neg hslot, sub_lt_iff_lt_add']
  constructor
  · rintro ⟨reason, hreason, hfull⟩
    by_contra hfits
    have hfits' : ¬ (Lane.normal.agentCap (q.demand i pressure base).agentCap
        (q.demand i pressure base).underPressure : ℚ) <
        h.accountWeight (h.pruned i pressure (q.args base) .normal s)
          (q.demand i pressure base).pool (q.demand i pressure base).account +
        (q.demand i pressure base).weight := hfits
    rw [if_neg hfits'] at hfull
    split at hfull
    · cases hfull
      exact absurd hreason (by decide)
    · cases hfull
  · intro hlacks
    have hlacks' : (Lane.normal.agentCap (q.demand i pressure base).agentCap
        (q.demand i pressure base).underPressure : ℚ) <
        h.accountWeight (h.pruned i pressure (q.args base) .normal s)
          (q.demand i pressure base).pool (q.demand i pressure base).account +
        (q.demand i pressure base).weight := hlacks
    rw [if_pos hlacks']
    refine ⟨_, ?_, rfl⟩
    split
    · decide
    · split
      · decide
      · decide

theorem Host.pruned_of_no_stale (hstale : h.reclaimCandidates (h.pruneState s) false = [])
    (i : Installation) (pressure : List PressureEntry) (args : AcquireArgs) (lane : Lane) :
    h.pruned i pressure args lane s = h.pruneState s := by
  unfold Host.pruned Host.roomState Host.reclaimStaleLeases
  simp only [hstale, List.map_nil, if_true, ite_self]

theorem Host.BudgetAgrees.aligned (hagrees : h.BudgetAgrees i pressure base q s) :
    h.BudgetAligned i pressure base q s := by
  constructor
  · intro hagent hcooling hrss hworkers hone hweight
    obtain ⟨slots, hslots, hpos⟩ := Host.one_le_agentRemaining.mpr ⟨hworkers, hone⟩
    obtain ⟨remaining, hremaining, hfits⟩ := Host.weight_le_accountRemaining.mpr hweight
    by_contra hlacks
    obtain ⟨reason, hreason, hwait⟩ :=
      (Host.refused_for_cap_iff hagent hcooling hworkers).mpr (not_le.mp hlacks)
    exact hagrees.gate_of_budget hcooling hrss slots remaining hslots hpos hremaining hfits
      reason hreason hwait
  · intro hagent hcooling hroom hstale hweight
    have hallows : h.Allows i pressure (q.args base) .normal s := by
      refine Host.allows_iff.mpr ⟨hagent, hcooling, ?_⟩
      show h.HasRoom _ _ .normal (h.pruned i pressure (q.args base) .normal s)
      rw [Host.pruned_of_no_stale hstale]
      exact hroom
    have hslots := hagrees.budget_of_gate hallows hstale
      (by rw [Host.requestWeight_budgetFor, hweight])
    exact (Host.one_le_agentRemaining.mp hslots).2

theorem Host.BudgetAligned.agrees (haligned : h.BudgetAligned i pressure base q s) :
    h.BudgetAgrees i pressure base q s := by
  constructor
  · intro hcooling hrss slots remaining hslots hpos hremaining hfits reason hreason hwait
    obtain ⟨hworkers, hone⟩ := Host.one_le_agentRemaining.mp ⟨slots, hslots, hpos⟩
    have hweight := Host.weight_le_accountRemaining.mp ⟨remaining, hremaining, hfits⟩
    by_cases hagent : legacyAgentHandles.lookup (q.demand i pressure base).agent = none
    · have hlacks := (Host.refused_for_cap_iff hagent hcooling hworkers).mp
        ⟨reason, hreason, hwait⟩
      exact absurd (haligned.enough hagent hcooling hrss hworkers hone hweight)
        (not_le.mpr hlacks)
    · -- A retired agent gets an error, not a wait.
      unfold Host.cmdAcquire at hwait
      simp only at hwait
      rw [if_pos hagent] at hwait
      cases hwait
  · intro hallows hstale hweight
    rw [Host.requestWeight_budgetFor] at hweight
    obtain ⟨hagent, hcooling, hroom⟩ := Host.allows_iff.mp hallows
    have hpruned : h.HasRoom (profile i (q.args base)) (q.demand i pressure base) .normal
        (h.pruneState s) := by
      rw [← Host.pruned_of_no_stale hstale i pressure (q.args base) .normal]
      exact hroom
    exact Host.one_le_agentRemaining.mpr ⟨hpruned.workers,
      haligned.reach hagent hcooling hpruned hstale hweight⟩

end Gate

end GoalFlight.Capacity
