import GoalFlight.Capacity.Grant
import GoalFlight.Library.Rounding
import Mathlib.Data.List.Dedup
import Mathlib.Data.List.Sort
import Mathlib.Data.Rat.Floor

/-!
# Capacity: the launch budget

`launch_slot_budget` says without taking a lease how many workers could still start, on
the machine and for one agent and account.  It goes through rows, one for each vendor and
account that has a lease or a configured cap, keyed by the text `vendor/account`.

The gate resolves the same cap by another path: it asks under the agent's own name and
hands the agent's legacy cap down as the default, while a row asks under its vendor's name
and without a default, which lets the built-in account caps in.
-/

namespace GoalFlight.Capacity

open Relational Rounding

/-! ### Caps -/

/-- `DEFAULT_ACCOUNT_CAPS`. -/
def defaultAccountCaps : List (String × ℕ) := [("grok", 50)]

/-- `account_cap`. -/
def Limits.vendorAccountCap (c : Limits) (vendor account : String) (default : Option ℤ) : ℤ :=
  let vendorKey := capPool vendor
  let configured := (c.accountCaps.lookup vendorKey).getD []
  let accountKey := if strip account = "" then "default" else strip account
  match (configured.lookup accountKey).or (configured.lookup "default") with
  | some cap => cap
  | none =>
    default.getD ((defaultAccountCaps.lookup vendorKey).getD
      ((c.agentCaps.lookup vendorKey).getD ((c.agentCaps.lookup vendor).getD 2)))

/-- `_account_cap`, with the default it is called with. -/
def Limits.accountCapOr (c : Limits) (vendor account : String) (default : Option ℤ) : ℤ :=
  let vendorKey := capPool vendor
  let configured := (c.accountCaps.lookup vendorKey).getD []
  match configured.lookup account with
  | some cap => cap
  | none =>
    match configured.lookup "default" with
    | some cap => cap
    | none => c.vendorAccountCap vendorKey account default

/-! ### Rows -/

/-- `f"{vendor}/{account}"`. -/
def rowKey (vendor account : String) : String := vendor ++ "/" ++ account

/-- `key.split("/", 1)` of a key with a slash. -/
def splitKey (key : String) : String × String :=
  (String.ofList (key.toList.takeWhile (· ≠ '/')),
    String.ofList (key.toList.dropWhile (· ≠ '/')).tail)

/-- A row of `account_capacity_rows`. -/
structure CapacityRow where
  vendor : String
  account : String
  active : ℕ
  activeWeight : ℚ
  cap : ℤ
  baseCap : ℤ
  remaining : ℚ
  underPressure : Bool

/-- The key a lease is counted under. -/
def Host.leaseKey (h : Host) (l : CapacityLease) : String := rowKey l.vendor (h.leaseAccount l)

/-- The leases counted under a key. -/
def Host.keyed (h : Host) (leases : List CapacityLease) (key : String) : List CapacityLease :=
  leases.filter fun l => h.leaseKey l = key

/-- `active_by_key`. -/
def Host.keyWeight (h : Host) (leases : List CapacityLease) (key : String) : ℚ :=
  ((h.keyed leases key).map CapacityLease.weight).sum

/-- The row of a key. -/
def Host.capacityRow (h : Host) (c : Limits) (pressure : List PressureEntry)
    (leases : List CapacityLease) (key : String) : CapacityRow :=
  let vendor := (splitKey key).1
  let account := (splitKey key).2
  let base := c.accountCapOr vendor account none
  let effective := adaptiveAgentCap vendor base pressure
  let activeWeight := roundDigits 6 (h.keyWeight leases key)
  { vendor := vendor
    account := account
    active := (h.keyed leases key).length
    activeWeight := activeWeight
    cap := effective.1
    baseCap := base
    remaining := roundDigits 6 (max 0 (effective.1 - activeWeight))
    underPressure := effective.2 }

/-- The keys of the configured accounts. -/
def Limits.configuredKeys (c : Limits) : List String :=
  c.accountCaps.flatMap fun vendor =>
    (vendor.2.filter fun account => account.1 ≠ "default").map fun account =>
      rowKey vendor.1 account.1

/-- The keys of `account_capacity_rows`, in order. -/
def Host.rowKeys (h : Host) (c : Limits) (leases : List CapacityLease) : List String :=
  ((leases.map h.leaseKey ++ c.configuredKeys).dedup).insertionSort (· ≤ ·)

/-- `account_capacity_rows`. -/
def Host.accountCapacityRows (h : Host) (c : Limits) (pressure : List PressureEntry)
    (leases : List CapacityLease) : List (String × CapacityRow) :=
  (h.rowKeys c leases).map fun key => (key, h.capacityRow c pressure leases key)

/-- The row of a requested account that has none. -/
def requestedRow (c : Limits) (pressure : List PressureEntry) (vendor account : String) :
    CapacityRow :=
  let base := c.accountCapOr vendor account none
  let effective := adaptiveAgentCap vendor base pressure
  { vendor := vendor
    account := account
    active := 0
    activeWeight := 0
    cap := effective.1
    baseCap := base
    remaining := effective.1
    underPressure := effective.2 }

/-! ### The budget -/

/-- `int` of a number. -/
def truncate (q : ℚ) : ℤ := if 0 ≤ q then ⌊q⌋ else ⌈q⌉

/-- `launch_slot_budget`, but for the fields it repeats from its arguments. -/
structure SlotBudget where
  unreadable : Bool
  operatingCap : ℤ
  active : ℕ
  globalRemaining : ℤ
  byPool : List (String × ℤ)
  byAccount : List (String × CapacityRow)
  requestWeight : ℚ
  accountRemaining : Option ℚ
  agentRemaining : Option ℤ

/-- `pool_active`. -/
def poolWeight (leases : List CapacityLease) (pool : String) : ℚ :=
  ((leases.filter fun l => l.vendor = pool).map CapacityLease.weight).sum

/-- The entry of one pool in `by_pool`. -/
def poolRemaining (c : Limits) (pressure : List PressureEntry) (leases : List CapacityLease)
    (byAccount : List (String × CapacityRow)) (pool : String) : ℤ :=
  let rows := byAccount.filter fun row => row.2.vendor = pool
  if rows ≠ [] then max 0 (truncate ((rows.map fun row => row.2.remaining).sum))
  else
    let base := (c.agentCaps.lookup pool).getD 2
    max 0 ((adaptiveAgentCap pool base pressure).1 - truncate (poolWeight leases pool))

/-- The pools of `by_pool`. -/
def poolNames (c : Limits) (leases : List CapacityLease) : List String :=
  ((c.agentCaps.map Prod.fst ++ leases.map CapacityLease.vendor ++
    c.accountCaps.map Prod.fst).filter (· ≠ "")).dedup

/-- `launch_slot_budget` on the state file, which is `none` when it cannot be read. -/
def Host.launchSlotBudget (h : Host) (i : Installation) (pressure : List PressureEntry)
    (args : AcquireArgs) (agent account model : Option String) (stored : Option CapacityState) :
    SlotBudget :=
  let operatingCap := (profile i args).operatingCap
  match stored with
  | none =>
    { unreadable := true
      operatingCap := operatingCap
      active := 0
      globalRemaining := 0
      byPool := []
      byAccount := []
      requestWeight := 1
      accountRemaining := none
      agentRemaining := some 0 }
  | some s =>
    let leases := (h.pruneState s).activeLeases
    let globalRemaining := max 0 (operatingCap - leases.length)
    let rows := h.accountCapacityRows i.limits pressure leases
    let byAccount :=
      match given agent, given account with
      | some agent, some account =>
        let vendor := capPool (normalizeAgent agent)
        if rowKey vendor account ∈ rows.map Prod.fst then rows
        else rows ++ [(rowKey vendor account, requestedRow i.limits pressure vendor account)]
      | _, _ => rows
    let byPool := (poolNames i.limits leases).map fun pool =>
      (pool, poolRemaining i.limits pressure leases byAccount pool)
    let accountRemaining :=
      match given agent, given account with
      | some agent, some account =>
        some (((byAccount.lookup (rowKey (capPool (normalizeAgent agent)) account)).map
          CapacityRow.remaining).getD 0)
      | _, _ => none
    { unreadable := false
      operatingCap := operatingCap
      active := leases.length
      globalRemaining := globalRemaining
      byPool := byPool
      byAccount := byAccount
      requestWeight :=
        match given agent with
        | some agent => i.limits.modelWeight (capPool (normalizeAgent agent)) model
        | none => 1
      accountRemaining := accountRemaining
      agentRemaining :=
        (given agent).map fun agent =>
          match accountRemaining with
          | some remaining => min globalRemaining (truncate remaining)
          | none =>
            min globalRemaining
              ((byPool.lookup (capPool (normalizeAgent agent))).getD globalRemaining) }

/-! ### The row of a request -/

theorem lookup_map_self {β : Type} (f : String → β) (keys : List String) (key : String) :
    (keys.map fun k => (k, f k)).lookup key = if key ∈ keys then some (f key) else none := by
  induction keys with
  | nil => rfl
  | cons k rest ih =>
    rw [List.map_cons, List.lookup_cons]
    by_cases heq : key = k
    · subst heq
      rw [beq_self_eq_true, if_pos List.mem_cons_self]
    · rw [beq_eq_false_iff_ne.mpr heq, ih]
      simp only [List.mem_cons, heq, false_or]

theorem Host.mem_rowKeys {h : Host} {c : Limits} {leases : List CapacityLease} {key : String} :
    key ∈ h.rowKeys c leases ↔ (∃ l ∈ leases, h.leaseKey l = key) ∨ key ∈ c.configuredKeys := by
  unfold Host.rowKeys
  rw [List.mem_insertionSort, List.mem_dedup, List.mem_append, List.mem_map]

theorem Host.keyWeight_of_notMem {h : Host} {c : Limits} {leases : List CapacityLease}
    {key : String} (hkey : key ∉ h.rowKeys c leases) : h.keyWeight leases key = 0 := by
  have hnone : h.keyed leases key = [] := by
    refine List.filter_eq_nil_iff.mpr fun l hl heq => ?_
    exact hkey (Host.mem_rowKeys.mpr (.inl ⟨l, hl, of_decide_eq_true heq⟩))
  unfold Host.keyWeight
  rw [hnone]
  rfl

/-- The cap of the row a request is answered from. -/
def Host.budgetCap (h : Host) (c : Limits) (pressure : List PressureEntry)
    (leases : List CapacityLease) (vendor account : String) : ℤ :=
  if rowKey vendor account ∈ h.rowKeys c leases then
    (h.capacityRow c pressure leases (rowKey vendor account)).cap
  else (requestedRow c pressure vendor account).cap

/-- What the budget has left for an account: the cap of its row less the rounded weight
under its key. -/
def Host.budgetHeadroom (h : Host) (c : Limits) (pressure : List PressureEntry)
    (leases : List CapacityLease) (vendor account : String) : ℚ :=
  h.budgetCap c pressure leases vendor account -
    roundDigits 6 (h.keyWeight leases (rowKey vendor account))

theorem Host.capacityRow_remaining (h : Host) (c : Limits) (pressure : List PressureEntry)
    (leases : List CapacityLease) (key : String) :
    (h.capacityRow c pressure leases key).remaining =
      max 0 ((h.capacityRow c pressure leases key).cap -
        roundDigits 6 (h.keyWeight leases key)) := by
  refine roundDigits_of_onGrid (OnGrid.max ⟨0, by simp⟩ (OnGrid.sub (OnGrid.intCast _) ?_))
  exact onGrid_roundDigits 6 _

end GoalFlight.Capacity
