import Mathlib.Data.Rat.Defs
import Mathlib.Algebra.Order.Ring.Rat
import Mathlib.Tactic.Common

/-!
# The watcher: is a worker alive

`classifyLiveness` judges a worker by its identity, by how long its log has been silent and, once
the idle window is over, by three probes: the CPU of its process group, its live children, and the
writes in its tree.  A probe that could not tell is `none`, or unavailable.
-/

namespace GoalFlight.Watch

/-- `LivenessThresholds`. -/
structure LivenessThresholds where
  idleTimeoutS : Option ℚ
  cpuEpsilonPct : ℚ

/-- `tree_probe`. -/
inductive TreeProbe
  | skipped
  | measured
  | unavailable
deriving DecidableEq

/-- The states of `classify_liveness`, and the two that the watcher gives a worker itself. -/
inductive LivenessState
  | workerDead
  | running
  | runningQuiet
  | livenessIndeterminate
  | wedged
  | intentionallyBlocked
  | runningViaTrace
deriving DecidableEq

/-- `LOW_POWER_RELAX_FACTOR`. -/
def lowPowerRelaxFactor : ℚ := 3

/-- `LOW_POWER_RELAX_CAP_S`. -/
def lowPowerRelaxCapS : ℚ := 600

/-- `INDETERMINATE_LIVENESS_FLOOR_S`. -/
def indeterminateLivenessFloorS : ℚ := 7200

/-- `cpu_confirmed_idle`. -/
def cpuConfirmedIdle (cpuPct : Option ℚ) (epsilonPct : ℚ) : Bool :=
  cpuPct.any fun pct => pct ≤ epsilonPct

/-- `resolve_indeterminate_timeout_s`. -/
def resolveIndeterminateTimeoutS (idleTimeoutS override : Option ℚ) : ℚ :=
  let floor :=
    let idle :=
      match idleTimeoutS with
      | some idle => if 0 < idle then idle else 0
      | none => 0
    max idle indeterminateLivenessFloorS
  match override with
  | some secs => if 0 < secs then secs else floor
  | none => floor

theorem resolveIndeterminateTimeoutS_of_pos {idle : Option ℚ} {secs : ℚ} (h : 0 < secs) :
    resolveIndeterminateTimeoutS idle (some secs) = secs := if_pos h

theorem resolveIndeterminateTimeoutS_resolved (idle idle' override : Option ℚ) :
    resolveIndeterminateTimeoutS idle (some (resolveIndeterminateTimeoutS idle' override)) =
      resolveIndeterminateTimeoutS idle' override := by
  have hpos : 0 < resolveIndeterminateTimeoutS idle' override := by
    have hfloor : ∀ secs : ℚ, 0 < max secs indeterminateLivenessFloorS :=
      fun secs => lt_of_lt_of_le (by decide +kernel) (le_max_right secs _)
    unfold resolveIndeterminateTimeoutS
    cases override with
    | none => exact hfloor _
    | some secs =>
      simp only
      split
      · assumption
      · exact hfloor _
  exact resolveIndeterminateTimeoutS_of_pos hpos

/-- What the three probes and the silence of the log say. -/
structure Probes where
  pgroupCpu : Option ℚ
  liveDescendants : Option ℕ
  treeProbe : TreeProbe
  treeAgeS : Option ℚ

namespace Probes

/-- A tree age that comes without a probe has been measured. -/
def treeResult (probes : Probes) : TreeProbe :=
  if probes.treeProbe = .skipped ∧ probes.treeAgeS.isSome then .measured else probes.treeProbe

/-- `descendants_alive`. -/
def descendantsAlive (probes : Probes) : Bool := probes.liveDescendants.any fun n => 0 < n

/-- `cpu_alive`. -/
def cpuAlive (probes : Probes) (thresholds : LivenessThresholds) : Bool :=
  probes.pgroupCpu.any fun pct => thresholds.cpuEpsilonPct < pct

/-- `tree_alive`. -/
def treeAlive (probes : Probes) (idleTimeout : ℚ) : Bool :=
  probes.treeResult = .measured && probes.treeAgeS.any fun age => age < idleTimeout

/-- One of the probes could not tell. -/
def unknown (probes : Probes) : Bool :=
  probes.liveDescendants = none || probes.treeResult ≠ .measured || probes.pgroupCpu = none

end Probes

/-- **`classify_liveness`**. -/
def classifyLiveness (pidAlive : Bool) (secondsSinceEvent : Option ℚ)
    (thresholds : LivenessThresholds) (lowPowerRelax : Bool) (probes : Probes)
    (indeterminateTimeoutS : Option ℚ) : LivenessState :=
  if !pidAlive then .workerDead
  else
    match thresholds.idleTimeoutS, secondsSinceEvent with
    | some idleTimeout, some seconds =>
      if ¬ (0 < idleTimeout ∧ idleTimeout ≤ seconds) then .running
      else if probes.descendantsAlive || probes.treeAlive idleTimeout ||
          probes.cpuAlive thresholds then .runningQuiet
      else if probes.unknown then
        if resolveIndeterminateTimeoutS (some idleTimeout) indeterminateTimeoutS ≤ seconds then
          .livenessIndeterminate
        else .running
      else if (lowPowerRelax && cpuConfirmedIdle probes.pgroupCpu thresholds.cpuEpsilonPct) ∧
          seconds < min (idleTimeout * max 1 lowPowerRelaxFactor)
            (idleTimeout + lowPowerRelaxCapS) then .running
      else .wedged
    | _, _ => .running

/-- **Three probes have looked, and found nothing.** -/
structure Probes.Nothing (probes : Probes) (idleTimeout epsilon : ℚ) : Prop where
  cpu : ∃ pct, probes.pgroupCpu = some pct ∧ pct ≤ epsilon
  descendants : probes.liveDescendants = some 0
  tree : probes.treeResult = .measured
  writes : ∀ age, probes.treeAgeS = some age → idleTimeout ≤ age

/-- **One of the probes could not tell, and none found anything.** -/
structure Probes.Unclear (probes : Probes) (idleTimeout epsilon : ℚ) : Prop where
  unknown : probes.liveDescendants = none ∨ probes.treeResult ≠ .measured ∨
    probes.pgroupCpu = none
  cpu : ∀ pct, probes.pgroupCpu = some pct → pct ≤ epsilon
  descendants : ∀ n, probes.liveDescendants = some n → n = 0
  writes : probes.treeResult = .measured → ∀ age, probes.treeAgeS = some age → idleTimeout ≤ age

section Classified

variable {pidAlive lowPowerRelax : Bool} {seconds idleTimeout epsilon : ℚ} {probes : Probes}
variable {bound : Option ℚ}

theorem Probes.not_alive (h : ¬ (probes.descendantsAlive || probes.treeAlive idleTimeout ||
      probes.cpuAlive ⟨some idleTimeout, epsilon⟩) = true) :
    (∀ pct, probes.pgroupCpu = some pct → pct ≤ epsilon) ∧
      (∀ n, probes.liveDescendants = some n → n = 0) ∧
      (probes.treeResult = .measured → ∀ age, probes.treeAgeS = some age → idleTimeout ≤ age) := by
  simp only [Bool.or_eq_true, not_or, descendantsAlive, treeAlive, cpuAlive, Bool.and_eq_true,
    decide_eq_true_eq, not_and] at h
  obtain ⟨⟨hdescendants, htree⟩, hcpu⟩ := h
  refine ⟨fun pct hpct => ?_, fun n hn => ?_, fun hmeasured age hage => ?_⟩
  · rw [hpct] at hcpu
    simpa using hcpu
  · rw [hn] at hdescendants
    simpa using hdescendants
  · have hnot := htree hmeasured
    rw [hage] at hnot
    simpa using hnot

theorem Probes.Unclear.not_quiet (h : probes.Unclear idleTimeout epsilon) :
    ¬ (probes.descendantsAlive || probes.treeAlive idleTimeout ||
      probes.cpuAlive ⟨some idleTimeout, epsilon⟩) = true := by
  simp only [Bool.or_eq_true, not_or, descendantsAlive, treeAlive, cpuAlive, Bool.and_eq_true,
    decide_eq_true_eq, not_and, Bool.not_eq_true, Option.any_eq_false_iff_get,
    decide_eq_false_iff_not, not_lt]
  refine ⟨⟨fun hsome => ?_, fun hmeasured hsome => ?_⟩, fun hsome => ?_⟩
  · exact Nat.le_zero.mpr (h.descendants _ (Option.some_get hsome).symm)
  · exact h.writes hmeasured _ (Option.some_get hsome).symm
  · exact h.cpu _ (Option.some_get hsome).symm

/-- **A worker is written off** only where the window is over and all three probes found
nothing. -/
theorem classifyLiveness_wedged
    (h : classifyLiveness pidAlive (some seconds) ⟨some idleTimeout, epsilon⟩ lowPowerRelax probes
      bound = .wedged) :
    pidAlive = true ∧ 0 < idleTimeout ∧ idleTimeout ≤ seconds ∧
      probes.Nothing idleTimeout epsilon := by
  unfold classifyLiveness at h
  cases pidAlive with
  | false => cases h
  | true =>
    simp only [Bool.not_true, Bool.false_eq_true, if_false] at h
    split at h
    · cases h
    · rename_i hexpired
      split at h
      · cases h
      · rename_i hquiet
        obtain ⟨hcpu, hdescendants, hwrites⟩ := Probes.not_alive hquiet
        split at h
        · split at h <;> cases h
        · rename_i hknown
          simp only [Probes.unknown, Bool.or_eq_true, decide_eq_true_eq, not_or] at hknown
          obtain ⟨⟨hchildren, htree⟩, hcpuKnown⟩ := hknown
          have hexpired := not_not.mp hexpired
          refine ⟨rfl, hexpired.1, hexpired.2, ?_, ?_, not_not.mp htree,
            hwrites (not_not.mp htree)⟩
          · obtain ⟨pct, hpct⟩ := Option.ne_none_iff_exists'.mp hcpuKnown
            exact ⟨pct, hpct, hcpu pct hpct⟩
          · obtain ⟨n, hn⟩ := Option.ne_none_iff_exists'.mp hchildren
            rw [hn, hdescendants n hn]

/-- **Nothing can be told of a worker** only where the bound is over, a probe is unknown and none
found anything; and then it is so. -/
theorem classifyLiveness_indeterminate_iff :
    classifyLiveness pidAlive (some seconds) ⟨some idleTimeout, epsilon⟩ lowPowerRelax probes
        bound = .livenessIndeterminate ↔
      pidAlive = true ∧ 0 < idleTimeout ∧ idleTimeout ≤ seconds ∧
        resolveIndeterminateTimeoutS (some idleTimeout) bound ≤ seconds ∧
          probes.Unclear idleTimeout epsilon := by
  unfold classifyLiveness
  cases pidAlive with
  | false => simp
  | true =>
    simp only [Bool.not_true, Bool.false_eq_true, if_false, true_and]
    by_cases hexpired : 0 < idleTimeout ∧ idleTimeout ≤ seconds
    · rw [if_neg (not_not.mpr hexpired)]
      by_cases hquiet : (probes.descendantsAlive || probes.treeAlive idleTimeout ||
          probes.cpuAlive ⟨some idleTimeout, epsilon⟩) = true
      · rw [if_pos hquiet]
        refine iff_of_false LivenessState.noConfusion ?_
        rintro ⟨-, -, -, hunclear⟩
        exact hunclear.not_quiet hquiet
      · rw [if_neg hquiet]
        obtain ⟨hcpu, hdescendants, hwrites⟩ := Probes.not_alive hquiet
        by_cases hunknown : probes.unknown = true
        · rw [if_pos hunknown]
          simp only [Probes.unknown, Bool.or_eq_true, decide_eq_true_eq, or_assoc] at hunknown
          by_cases hbound : resolveIndeterminateTimeoutS (some idleTimeout) bound ≤ seconds
          · rw [if_pos hbound]
            exact iff_of_true rfl ⟨hexpired.1, hexpired.2, hbound, hunknown, hcpu, hdescendants,
              hwrites⟩
          · rw [if_neg hbound]
            exact iff_of_false LivenessState.noConfusion fun h => hbound h.2.2.1
        · rw [if_neg hunknown]
          simp only [Probes.unknown, Bool.or_eq_true, decide_eq_true_eq, or_assoc] at hunknown
          refine iff_of_false ?_ fun h => hunknown h.2.2.2.unknown
          split <;> exact LivenessState.noConfusion
    · rw [if_pos hexpired]
      exact iff_of_false LivenessState.noConfusion fun h => hexpired ⟨h.1, h.2.1⟩

end Classified

end GoalFlight.Watch
