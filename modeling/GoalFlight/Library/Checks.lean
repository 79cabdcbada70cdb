import Mathlib.Data.List.Basic
import Mathlib.Tactic.Common

/-!
# Sequences of checks

A check lets a value through or refuses it with a reason, and may say something about the
value on the way.  A sequence of checks goes on to the next value only when nothing was
refused so far.

* `forM_eq_ok` has a sequence let through exactly when every value is;
* `foldlM_eq_ok` is the same for a sequence that also collects a flag.
* `bind_eq_ok` and `require_eq_ok` take a program of checks apart.
-/

namespace Checks

universe u v

variable {ε : Type u} {α : Type v}

theorem forM_eq_ok {check : α → Except ε PUnit} {xs : List α} :
    forM xs check = .ok ⟨⟩ ↔ ∀ x ∈ xs, check x = .ok ⟨⟩ := by
  induction xs with
  | nil => simp [pure, Except.pure]
  | cons x xs ih =>
    rw [List.forM_cons, List.forall_mem_cons, ← ih]
    cases check x with
    | error e => simp [bind, Except.bind]
    | ok passed => simp [bind, Except.bind]

/-- **A flag collected on the way.**  Each check that lets a value through raises the flag
for the values in `flags`; the sequence then does when one of its values is in it. -/
theorem foldlM_eq_ok {check : Bool → α → Except ε Bool} {good : α → Prop} {flags : α → Bool}
    (hcheck : ∀ b x b', check b x = .ok b' ↔ good x ∧ b' = (b || flags x)) {xs : List α} :
    ∀ {b b' : Bool}, xs.foldlM check b = .ok b' ↔
      (∀ x ∈ xs, good x) ∧ b' = (b || xs.any flags) := by
  induction xs with
  | nil => intro b b'; simp [pure, Except.pure, eq_comm]
  | cons x xs ih =>
    intro b b'
    rw [List.foldlM_cons, List.forall_mem_cons, List.any_cons, ← Bool.or_assoc]
    cases hx : check b x with
    | error e =>
      have hbad : ¬ good x := by
        intro hgood
        have hok := (hcheck b x (b || flags x)).mpr ⟨hgood, rfl⟩
        rw [hx] at hok
        cases hok
      simp [bind, Except.bind, hbad]
    | ok c =>
      obtain ⟨hgood, rfl⟩ := (hcheck b x c).mp hx
      simp [bind, Except.bind, hgood, ih]

theorem forall_of_foldlM_ok {β : Type} {α : Type v} {check : β → α → Except ε β} {good : α → Prop}
    (hcheck : ∀ b x b', check b x = .ok b' → good x) {xs : List α} :
    ∀ {b b' : β}, xs.foldlM check b = .ok b' → ∀ x ∈ xs, good x := by
  induction xs with
  | nil => intro b b' _ x hx; cases hx
  | cons x xs ih =>
    intro b b' h
    rw [List.foldlM_cons] at h
    cases hx : check b x with
    | error e =>
      rw [hx] at h
      cases h
    | ok c =>
      rw [hx] at h
      exact List.forall_mem_cons.mpr ⟨hcheck b x c hx, ih h⟩

/-- The check of a condition. -/
def require (p : Prop) [Decidable p] (reason : ε) : Except ε PUnit :=
  if p then .ok ⟨⟩ else .error reason

theorem require_eq_ok {p : Prop} [Decidable p] {reason : ε} :
    require p reason = .ok ⟨⟩ ↔ p := by
  unfold require
  split <;> simp [*]

theorem bind_eq_ok {β γ : Type v} {x : Except ε β} {f : β → Except ε γ} {c : γ} :
    (x >>= f) = .ok c ↔ ∃ b, x = .ok b ∧ f b = .ok c := by
  cases x with
  | error e => simp [bind, Except.bind]
  | ok b => simp [bind, Except.bind]

theorem require_bind_eq_ok {p : Prop} [Decidable p] {reason : ε} {β : Type} {x : Except ε β}
    {c : β} : (require p reason >>= fun _ => x) = .ok c ↔ p ∧ x = .ok c := by
  unfold require
  split
  · rename_i hp
    simp [bind, Except.bind, hp]
  · rename_i hp
    simp [bind, Except.bind, hp]

end Checks
