import Mathlib.Data.List.Basic
import Std.Data.String.ToNat

/-!
# Joined texts

A list of texts joined by a separator can be read back when no text holds the separator
and none is empty.  Two texts glued by a separator can be read back when the first holds
no separator.
-/

namespace Joined

/-- **Reading back a join.**  `separator.join(…)` is injective on lists of non-empty texts
without the separator. -/
theorem intercalate_injective {c : Char} {xs ys : List String}
    (hx : ∀ s ∈ xs, s ≠ "" ∧ c ∉ s.toList) (hy : ∀ s ∈ ys, s ≠ "" ∧ c ∉ s.toList)
    (h : (String.singleton c).intercalate xs = (String.singleton c).intercalate ys) :
    xs = ys := by
  have hlist : [c].intercalate (xs.map String.toList) =
      [c].intercalate (ys.map String.toList) := by
    have htoList := congrArg String.toList h
    rwa [String.toList_intercalate, String.toList_intercalate, String.toList_singleton]
      at htoList
  -- Only the empty list is joined to the empty text.
  have hnil : ∀ zs : List String, (∀ s ∈ zs, s ≠ "" ∧ c ∉ s.toList) →
      [c].intercalate (zs.map String.toList) = [] → zs = [] := by
    intro zs hz hempty
    cases zs with
    | nil => rfl
    | cons z zs =>
      have hne : z.toList ≠ [] := by
        intro hz'
        exact (hz z (by simp)).1 (String.toList_eq_nil_iff.mp hz')
      cases zs with
      | nil => exact absurd (by simpa using hempty) hne
      | cons w ws =>
        rw [List.map_cons, List.map_cons, List.intercalate_cons_cons] at hempty
        exact absurd (List.append_eq_nil_iff.mp hempty).1 (by simp)
  have hfree : ∀ zs : List String, (∀ s ∈ zs, s ≠ "" ∧ c ∉ s.toList) →
      ∀ l ∈ zs.map String.toList, c ∉ l := by
    intro zs hz l hl
    obtain ⟨s, hs, rfl⟩ := List.mem_map.mp hl
    exact (hz s hs).2
  by_cases hxs : xs = []
  · subst hxs
    rw [List.map_nil, List.intercalate_nil] at hlist
    exact (hnil ys hy hlist.symm).symm
  by_cases hys : ys = []
  · subst hys
    rw [List.map_nil, List.intercalate_nil] at hlist
    exact hnil xs hx hlist
  have hxs' := List.splitOn_intercalate c (hfree xs hx) (by simpa using hxs)
  have hys' := List.splitOn_intercalate c (hfree ys hy) (by simpa using hys)
  have hmap : xs.map String.toList = ys.map String.toList := by
    rw [← hxs', ← hys', hlist]
  exact List.map_injective_iff.mpr (fun a b => String.toList_inj.mp) hmap

/-- **Reading back a pair.**  A first text without the separator is what stands before the
first separator. -/
theorem append_cons_injective {α : Type*} {c : α} {xs ys zs ws : List α} (hx : c ∉ xs)
    (hy : c ∉ ys) (h : xs ++ c :: zs = ys ++ c :: ws) : xs = ys ∧ zs = ws := by
  induction xs generalizing ys with
  | nil =>
    cases ys with
    | nil => exact ⟨rfl, (List.cons.inj h).2⟩
    | cons y ys =>
      obtain ⟨rfl, -⟩ := List.cons.inj h
      simp at hy
  | cons x xs ih =>
    cases ys with
    | nil =>
      obtain ⟨rfl, -⟩ := List.cons.inj h
      simp at hx
    | cons y ys =>
      obtain ⟨rfl, hrest⟩ := List.cons.inj h
      obtain ⟨rfl, rfl⟩ := ih (fun hc => hx (List.mem_cons_of_mem _ hc))
        (fun hc => hy (List.mem_cons_of_mem _ hc)) hrest
      exact ⟨rfl, rfl⟩

theorem append_cons_injective_last {α : Type*} {c : α} {xs ys zs ws : List α} (hz : c ∉ zs)
    (hw : c ∉ ws) (h : xs ++ c :: zs = ys ++ c :: ws) : xs = ys ∧ zs = ws := by
  have hreverse : zs.reverse ++ c :: xs.reverse = ws.reverse ++ c :: ys.reverse := by
    simpa using congrArg List.reverse h
  obtain ⟨hlast, hfirst⟩ := append_cons_injective (by simpa using hz) (by simpa using hw) hreverse
  exact ⟨List.reverse_injective hfirst, List.reverse_injective hlast⟩

theorem notMem_toList_repr {c : Char} (hc : c.isDigit = false) (n : ℕ) :
    c ∉ (toString n).toList := by
  intro hmem
  have hrepr : (toString n).toList = Nat.toDigits 10 n := Nat.toList_repr
  rw [hrepr] at hmem
  have hdigit := Nat.isDigit_of_mem_toDigits (by decide) (by decide) hmem
  rw [hc] at hdigit
  cases hdigit

end Joined
