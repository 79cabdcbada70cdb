import Mathlib.Algebra.Order.Floor.Ring
import Mathlib.Algebra.Order.Round
import Mathlib.Tactic.FieldSimp
import Mathlib.Tactic.Ring

/-!
# Rounding half to even at a decimal place

A number is rounded to the nearest multiple of `10⁻ⁿ`, and to the even one between two
that are equally near.  Numbers on the grid are kept, and so are their differences from an
integer.
-/

namespace Rounding

variable {K : Type*} [Field K] [LinearOrder K] [IsStrictOrderedRing K] [FloorRing K]

/-- The nearest integer, the even one of two. -/
def roundEven (x : K) : ℤ :=
  if x - ⌊x⌋ < 1 / 2 then ⌊x⌋
  else if 1 / 2 < x - ⌊x⌋ then ⌊x⌋ + 1
  else ⌊x⌋ + ⌊x⌋ % 2

/-- The nearest number with `n` decimal places. -/
def roundDigits (n : ℕ) (x : K) : K := roundEven (x * 10 ^ n) / 10 ^ n

/-- The number has at most `n` decimal places. -/
def OnGrid (n : ℕ) (x : K) : Prop := ∃ k : ℤ, x * 10 ^ n = k

@[simp] theorem roundEven_intCast (k : ℤ) : roundEven (k : K) = k := by
  simp [roundEven]

section Grid

variable {n : ℕ}

omit [LinearOrder K] [IsStrictOrderedRing K] [FloorRing K] in
theorem OnGrid.intCast (k : ℤ) : OnGrid n (k : K) := ⟨k * 10 ^ n, by push_cast; rfl⟩

omit [LinearOrder K] [IsStrictOrderedRing K] [FloorRing K] in
theorem OnGrid.sub {x y : K} (hx : OnGrid n x) (hy : OnGrid n y) : OnGrid n (x - y) := by
  obtain ⟨k, hk⟩ := hx
  obtain ⟨m, hm⟩ := hy
  exact ⟨k - m, by rw [sub_mul, hk, hm]; push_cast; rfl⟩

omit [IsStrictOrderedRing K] [FloorRing K] in
theorem OnGrid.max {x y : K} (hx : OnGrid n x) (hy : OnGrid n y) : OnGrid n (max x y) := by
  rcases le_total x y with hle | hle
  · rwa [max_eq_right hle]
  · rwa [max_eq_left hle]

theorem roundDigits_of_onGrid {x : K} (hx : OnGrid n x) : roundDigits n x = x := by
  obtain ⟨k, hk⟩ := hx
  have hten : (10 : K) ^ n ≠ 0 := pow_ne_zero n (by norm_num)
  unfold roundDigits
  rw [hk, roundEven_intCast, ← hk, mul_div_cancel_right₀ x hten]

theorem onGrid_roundDigits (n : ℕ) (x : K) : OnGrid n (roundDigits n x) := by
  have hten : (10 : K) ^ n ≠ 0 := pow_ne_zero n (by norm_num)
  exact ⟨roundEven (x * 10 ^ n), div_mul_cancel₀ _ hten⟩

@[simp] theorem roundDigits_zero (n : ℕ) : roundDigits n (0 : K) = 0 :=
  roundDigits_of_onGrid ⟨0, by simp⟩

end Grid

end Rounding
