import Mathlib.Logic.Function.Basic
import Mathlib.Data.Nat.Notation
import Mathlib.Tactic.Common

/-!
# Threads over a shared state

Any number of threads, each with a place of its own in its program, take turns on one shared
state.  A statement about every interleaving is an assertion at each place and an invariant
of the shared state: a turn establishes the assertion of the place it leads to, keeps the
invariant, and keeps the assertions of the threads whose turn it is not.
-/

namespace Threads

universe u v

/-- A shared state, and the place of every thread. -/
structure State (σ : Type u) (κ : Type v) where
  shared : σ
  place : ℕ → κ

variable {σ : Type u} {κ : Type v}

namespace State

/-- A thread took a turn. -/
def turn (s : State σ κ) (p : ℕ) (next : σ × κ) : State σ κ :=
  ⟨next.1, Function.update s.place p next.2⟩

/-- The shared state changed under the threads. -/
def environment (s : State σ κ) (shared : σ) : State σ κ := ⟨shared, s.place⟩

@[simp] theorem turn_shared (s : State σ κ) (p : ℕ) (next : σ × κ) :
    (s.turn p next).shared = next.1 := rfl

@[simp] theorem turn_place_self (s : State σ κ) (p : ℕ) (next : σ × κ) :
    (s.turn p next).place p = next.2 := by
  show Function.update s.place p next.2 p = next.2
  rw [Function.update_self]

theorem turn_place_of_ne (s : State σ κ) {p q : ℕ} (hne : q ≠ p) (next : σ × κ) :
    (s.turn p next).place q = s.place q := by
  show Function.update s.place p next.2 q = s.place q
  rw [Function.update_of_ne hne]

end State

/-- The invariant holds of the shared state, and every thread's assertion of its place. -/
structure Holds (inv : σ → Prop) (ok : σ → ℕ → κ → Prop) (s : State σ κ) : Prop where
  inv : inv s.shared
  ok : ∀ p, ok s.shared p (s.place p)

variable {inv : σ → Prop} {ok : σ → ℕ → κ → Prop} {s : State σ κ}

/-- **A turn.** -/
theorem Holds.turn (h : Holds inv ok s) {p : ℕ} {next : σ × κ} (hinv : inv next.1)
    (hown : ok next.1 p next.2)
    (hothers : ∀ q, q ≠ p → ok s.shared q (s.place q) → ok next.1 q (s.place q)) :
    Holds inv ok (s.turn p next) := by
  refine ⟨hinv, ?_⟩
  intro q
  rw [State.turn_shared]
  by_cases hq : q = p
  · subst hq
    rw [State.turn_place_self]
    exact hown
  · rw [s.turn_place_of_ne hq]
    exact hothers q hq (h.ok q)

/-- **A change from outside.** -/
theorem Holds.environment (h : Holds inv ok s) {shared : σ} (hinv : inv shared)
    (hall : ∀ q k, ok s.shared q k → ok shared q k) :
    Holds inv ok (s.environment shared) :=
  ⟨hinv, fun q => hall q (s.place q) (h.ok q)⟩

end Threads
