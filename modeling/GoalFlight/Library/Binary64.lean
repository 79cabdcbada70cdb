import Mathlib.Algebra.Order.Group.Nat
import Mathlib.Data.Nat.Log
import Mathlib.Tactic.Common

/-!
# Natural numbers as binary64 floats

A conversion keeps the leading 53 bits of a number, rounding the rest half to even, and
fails when the result is beyond the largest finite float.  Numbers whose dropped bits are
zero are kept as they are; powers of two are such numbers, up to the end of the range.
-/

namespace Binary64

/-- How many of the low bits of `n` do not fit into `p` bits. -/
def dropped (p n : ℕ) : ℕ := n.log2 + 1 - p

/-- `n` with its leading `p` bits, the rest rounded half to even. -/
def round (p n : ℕ) : ℕ :=
  let unit := 2 ^ dropped p n
  let kept := n / unit
  let rest := n % unit
  if unit < 2 * rest ∨ 2 * rest = unit ∧ kept % 2 = 1 then (kept + 1) * unit else kept * unit

/-- The float nearest to `n`, as the natural number it is; nothing when `n` rounds beyond
the finite floats. -/
def ofNat? (n : ℕ) : Option ℕ :=
  if round 53 n < 2 ^ 1024 then some (round 53 n) else none

theorem round_of_dvd {p n : ℕ} (h : 2 ^ dropped p n ∣ n) : round p n = n := by
  have hrest : n % 2 ^ dropped p n = 0 := Nat.mod_eq_zero_of_dvd h
  have hunit : 0 < 2 ^ dropped p n := Nat.two_pow_pos _
  unfold round
  simp only [hrest, Nat.mul_zero]
  rw [if_neg (by omega)]
  exact Nat.div_mul_cancel h

theorem round_two_pow {p : ℕ} (hp : 0 < p) (k : ℕ) : round p (2 ^ k) = 2 ^ k := by
  refine round_of_dvd (Nat.pow_dvd_pow 2 ?_)
  unfold dropped
  rw [Nat.log2_two_pow]
  omega

theorem ofNat?_two_pow (k : ℕ) : ofNat? (2 ^ k) = if k < 1024 then some (2 ^ k) else none := by
  unfold ofNat?
  rw [round_two_pow (by decide)]
  simp only [Nat.pow_lt_pow_iff_right (by decide : 1 < 2)]

end Binary64
