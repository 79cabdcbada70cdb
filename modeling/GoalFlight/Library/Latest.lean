import Mathlib.Data.List.Basic
import Mathlib.Tactic.Common

/-!
# The last element of a stable sort

Sorting a list stably by a key and taking its last element gives, of the elements with the
greatest key, the one that stood last.  `isLatest_of_latest` says so of `latest`, which does
not sort.
-/

namespace Latest

universe u

variable {α : Type u} (le : α → α → Bool)

/-- The last of the greatest elements. -/
def latest : List α → Option α
  | [] => none
  | a :: rest =>
    match latest rest with
    | none => some a
    | some best => if le a best then some best else some a

variable {le} {xs : List α} {a : α}

theorem latest_eq_none_iff : latest le xs = none ↔ xs = [] := by
  cases xs with
  | nil => exact ⟨fun _ => rfl, fun _ => rfl⟩
  | cons a rest =>
    refine ⟨fun h => ?_, nofun⟩
    unfold latest at h
    split at h
    · cases h
    · split at h <;> cases h

/-- The element stands after none that is greater, and before none that is as great. -/
structure IsLatest (le : α → α → Bool) (before : List α) (a : α) (after : List α) : Prop where
  before : ∀ x ∈ before, le x a = true
  after : ∀ x ∈ after, le a x = false

section

variable (htotal : ∀ a b, le a b = true ∨ le b a = true)
  (htrans : ∀ {a b c}, le a b = true → le b c = true → le a c = true)
include htotal htrans

theorem isLatest_of_latest (h : latest le xs = some a) :
    ∃ before after, xs = before ++ a :: after ∧
      IsLatest le before a after := by
  induction xs generalizing a with
  | nil => cases h
  | cons b rest ih =>
    unfold latest at h
    split at h
    · rename_i hnone
      cases h
      rw [latest_eq_none_iff.mp hnone]
      exact ⟨[], [], rfl, nofun,
        nofun⟩
    · rename_i best hbest
      obtain ⟨before, after, hrest, hlatest⟩ := ih hbest
      split at h
      · rename_i hle
        cases h
        refine ⟨b :: before, after, by rw [hrest]; rfl, ?_, hlatest.after⟩
        exact List.forall_mem_cons.mpr ⟨hle, hlatest.before⟩
      · rename_i hnot
        cases h
        have hnot : le b best = false := Bool.eq_false_iff.mpr hnot
        refine ⟨[], rest, rfl, nofun, ?_⟩
        -- What is as great as the first is as great as the best of the others.
        intro x hx
        rw [Bool.eq_false_iff]
        intro hle
        have hbest : le x best = true := by
          rw [hrest] at hx
          rcases List.mem_append.mp hx with hx | hx
          · exact hlatest.before x hx
          · rcases List.mem_cons.mp hx with rfl | hx
            · exact (htotal x x).elim id id
            · have hfalse := hlatest.after x hx
              rcases htotal best x with h | h
              · rw [hfalse] at h
                cases h
              · exact h
        rw [htrans hle hbest] at hnot
        cases hnot

/-- **The last of the greatest of two lists**: that of the second, unless that of the first is
greater. -/
theorem latest_append (ys : List α) :
    latest le (xs ++ ys) =
      match latest le xs, latest le ys with
      | some a, some b => if le a b then some b else some a
      | some a, none => some a
      | none, best => best := by
  induction xs with
  | nil => rfl
  | cons x rest ih =>
    rw [List.cons_append, latest, ih]
    cases hrest : latest le rest with
    | none =>
      rw [latest, hrest]
      cases latest le ys with
      | none => rfl
      | some b => rfl
    | some a =>
      rw [latest, hrest]
      cases latest le ys with
      | none =>
        by_cases hxa : le x a = true
        · simp only [if_pos hxa]
        · simp only [if_neg hxa]
      | some b =>
        simp only
        by_cases hab : le a b = true
        · rw [if_pos hab]
          by_cases hxa : le x a = true
          · simp only [if_pos hxa, if_pos hab, if_pos (htrans hxa hab)]
          · simp only [if_neg hxa]
        · have hba : le b a = true := (htotal a b).resolve_left hab
          rw [if_neg hab]
          by_cases hxa : le x a = true
          · simp only [if_pos hxa, if_neg hab]
          · have hxb : ¬ le x b = true := fun hxb => hxa (htrans hxb hba)
            simp only [if_neg hxa, if_neg hxb]

theorem mem_of_latest (h : latest le xs = some a) : a ∈ xs := by
  obtain ⟨before, after, rfl, -⟩ := isLatest_of_latest htotal htrans h
  exact List.mem_append_right _ List.mem_cons_self

end

end Latest
