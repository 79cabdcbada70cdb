import Mathlib.Data.List.Basic
import Mathlib.Data.List.Induction
import Mathlib.Tactic.Common

/-!
# Runs of a step function

A *machine* is a step function `step : σ → α → σ`: a state and an action give the
next state, and an action that cannot happen leaves the state alone.  A run is
`List.foldl step`.

Two rules carry every statement about runs.

* `run_invariant`: a property every step preserves holds at the end of every run.
* `run_invariant_of_meets`: the same when only the steps that meet a side
  condition preserve it; `Meets` says that every step of the run meets it in the
  state it starts from.
-/

namespace Machine

universe u v

variable {σ : Type u} {α : Type v} (step : σ → α → σ)

/-- The state a list of actions leads to. -/
def run (s : σ) (actions : List α) : σ := actions.foldl step s

@[simp] theorem run_nil (s : σ) : run step s [] = s := rfl

@[simp] theorem run_cons (s : σ) (a : α) (actions : List α) :
    run step s (a :: actions) = run step (step s a) actions := rfl

theorem run_append (s : σ) (xs ys : List α) :
    run step s (xs ++ ys) = run step (run step s xs) ys := by
  simp [run]

/-- Every step of the run meets `ok` in the state it starts from. -/
def Meets (ok : σ → α → Prop) : σ → List α → Prop
  | _, [] => True
  | s, a :: actions => ok s a ∧ Meets ok (step s a) actions

@[simp] theorem meets_cons (ok : σ → α → Prop) (s : σ) (a : α) (actions : List α) :
    Meets step ok s (a :: actions) ↔ ok s a ∧ Meets step ok (step s a) actions := Iff.rfl

theorem meets_append {ok : σ → α → Prop} {s : σ} {xs ys : List α} :
    Meets step ok s (xs ++ ys) ↔ Meets step ok s xs ∧ Meets step ok (run step s xs) ys := by
  induction xs generalizing s with
  | nil => exact (and_iff_right trivial).symm
  | cons x xs ih =>
    rw [List.cons_append, meets_cons, meets_cons, ih, and_assoc]
    rfl

instance decidableMeets (ok : σ → α → Prop) [∀ s a, Decidable (ok s a)] :
    ∀ (s : σ) (actions : List α), Decidable (Meets step ok s actions)
  | _, [] => inferInstanceAs (Decidable True)
  | s, a :: actions =>
    haveI := decidableMeets ok (step s a) actions
    inferInstanceAs (Decidable (ok s a ∧ Meets step ok (step s a) actions))

variable {step}

/-- **Conditional invariance.**  A property that every step meeting `ok` preserves
holds at the end of every run whose steps all meet `ok`. -/
theorem run_invariant_of_meets {ok : σ → α → Prop} {inv : σ → Prop}
    (hstep : ∀ s a, inv s → ok s a → inv (step s a)) :
    ∀ {s : σ} {actions : List α}, inv s → Meets step ok s actions →
      inv (run step s actions) := by
  intro s actions
  induction actions generalizing s with
  | nil => intro hs _; exact hs
  | cons a actions ih =>
    rintro hs ⟨hok, hrest⟩
    exact ih (hstep s a hs hok) hrest

/-- **Invariance.**  A property every step preserves holds at the end of every
run. -/
theorem run_invariant {inv : σ → Prop} (hstep : ∀ s a, inv s → inv (step s a))
    {s : σ} (hs : inv s) (actions : List α) : inv (run step s actions) := by
  induction actions generalizing s with
  | nil => exact hs
  | cons a actions ih => exact ih (hstep s a hs)

/-- **Safety of every step.**  When, from an invariant, a step meeting `ok` keeps the
invariant and meets `good`, every step of a run whose steps meet `ok` meets `good`. -/
theorem meets_of_invariant {ok good : σ → α → Prop} {inv : σ → Prop}
    (hstep : ∀ s a, inv s → ok s a → inv (step s a) ∧ good s a) :
    ∀ {s : σ} {actions : List α}, inv s → Meets step ok s actions →
      Meets step good s actions := by
  intro s actions
  induction actions generalizing s with
  | nil => intro _ _; trivial
  | cons a actions ih =>
    rintro hs ⟨hok, hrest⟩
    obtain ⟨hinv, hgood⟩ := hstep s a hs hok
    exact ⟨hgood, ih hinv hrest⟩

/-- **Safety of every step of every run.** -/
theorem meets_of_preserved {good : σ → α → Prop} {inv : σ → Prop}
    (hstep : ∀ s a, inv s → inv (step s a) ∧ good s a) :
    ∀ {s : σ} {actions : List α}, inv s → Meets step good s actions := by
  intro s actions
  induction actions generalizing s with
  | nil => intro _; trivial
  | cons a actions ih =>
    intro hs
    obtain ⟨hinv, hgood⟩ := hstep s a hs
    exact ⟨hgood, ih hinv⟩

/-- **Exactness along a run.**  When a step from a state with `P` keeps `P` exactly if it
meets `ok`, a run whose states all have `P` is one whose steps all meet `ok`.  `inv` is
what every step keeps anyway. -/
theorem forall_states_iff_meets {ok : σ → α → Prop} {inv P : σ → Prop}
    (hstep : ∀ s a, inv s → P s → inv (step s a) ∧ (P (step s a) ↔ ok s a)) :
    ∀ {s : σ} {actions : List α}, inv s → P s →
      ((∀ before after, actions = before ++ after → P (run step s before)) ↔
        Meets step ok s actions) := by
  intro s actions
  induction actions generalizing s with
  | nil =>
    intro _ hs
    refine iff_of_true (fun before after h => ?_) trivial
    obtain ⟨rfl, -⟩ := List.append_eq_nil_iff.mp h.symm
    exact hs
  | cons a actions ih =>
    intro hinv hs
    obtain ⟨hinv', hiff⟩ := hstep s a hinv hs
    constructor
    · intro h
      have hnext : P (step s a) := h [a] actions rfl
      exact ⟨hiff.mp hnext, (ih hinv' hnext).mp fun before after heq =>
        h (a :: before) after (by rw [heq]; rfl)⟩
    · rintro ⟨hok, hrest⟩ before after heq
      cases before with
      | nil => exact hs
      | cons b before =>
        obtain ⟨rfl, htail⟩ := List.cons_eq_cons.mp heq
        exact (ih hinv' (hiff.mpr hok)).mpr hrest before after htail

/-- **Exactness of every step.**  When, from an invariant, each of the actions makes a step
that is `good` exactly if it meets `ok`, and one that meets `ok` keeps the invariant, the
run's steps are all good exactly if they all meet `ok`. -/
theorem meets_iff_of_invariant {ok good : σ → α → Prop} {inv : σ → Prop}
    {actions : List α} (hstep : ∀ s, ∀ a ∈ actions, inv s →
      (good s a ↔ ok s a) ∧ (ok s a → inv (step s a))) {s : σ} (hs : inv s) :
    Meets step good s actions ↔ Meets step ok s actions := by
  induction actions generalizing s with
  | nil => exact Iff.rfl
  | cons a actions ih =>
    obtain ⟨hiff, hnext⟩ := hstep s a List.mem_cons_self hs
    have hrest := fun s b hb => hstep s b (List.mem_cons_of_mem a hb)
    constructor
    · rintro ⟨hgood, hafter⟩
      exact ⟨hiff.mp hgood, (ih hrest (hnext (hiff.mp hgood))).mp hafter⟩
    · rintro ⟨hok, hafter⟩
      exact ⟨hiff.mpr hok, (ih hrest (hnext hok)).mpr hafter⟩

theorem Meets.and {ok ok' : σ → α → Prop} :
    ∀ {s : σ} {actions : List α}, Meets step ok s actions → Meets step ok' s actions →
      Meets step (fun s a => ok s a ∧ ok' s a) s actions := by
  intro s actions
  induction actions generalizing s with
  | nil => intro _ _; trivial
  | cons a actions ih =>
    rintro ⟨hok, hrest⟩ ⟨hok', hrest'⟩
    exact ⟨⟨hok, hok'⟩, ih hrest hrest'⟩

/-- Some step of the run meets `p` in the state it starts from. -/
def Occurs (step : σ → α → σ) (p : σ → α → Prop) : σ → List α → Prop
  | _, [] => False
  | s, a :: actions => p s a ∨ Occurs step p (step s a) actions

@[simp] theorem not_occurs_nil (p : σ → α → Prop) (s : σ) : ¬ Occurs step p s [] := id

instance decidableOccurs (p : σ → α → Prop) [∀ s a, Decidable (p s a)] :
    ∀ (s : σ) (actions : List α), Decidable (Occurs step p s actions)
  | _, [] => inferInstanceAs (Decidable False)
  | s, a :: actions =>
    haveI := decidableOccurs p (step s a) actions
    inferInstanceAs (Decidable (p s a ∨ Occurs step p (step s a) actions))

/-- **Occurrence.**  When a step meeting `p` makes `good` true, and every step keeps it, a
run with such a step ends with `good`.  `inv` is what every step keeps anyway. -/
theorem run_of_occurs {p : σ → α → Prop} {inv good : σ → Prop}
    (hinv : ∀ s a, inv s → inv (step s a)) (hmake : ∀ s a, inv s → p s a → good (step s a))
    (hkeep : ∀ s a, good s → good (step s a)) :
    ∀ {s : σ} {actions : List α}, inv s → Occurs step p s actions →
      good (run step s actions) := by
  intro s actions
  induction actions generalizing s with
  | nil => exact fun _ h => absurd h (not_occurs_nil p s)
  | cons a actions ih =>
    rintro hs (hp | hrest)
    · exact run_invariant hkeep (hmake s a hs hp) actions
    · exact ih (hinv s a hs) hrest

/-- **Monotonicity.**  A reflexive and transitive relation that every step extends
relates the two ends of every run. -/
theorem run_relates {R : σ → σ → Prop} (hrefl : ∀ s, R s s)
    (htrans : ∀ {a b c}, R a b → R b c → R a c) (hstep : ∀ s a, R s (step s a))
    (s : σ) (actions : List α) : R s (run step s actions) := by
  induction actions generalizing s with
  | nil => exact hrefl s
  | cons a actions ih => exact htrans (hstep s a) (ih (step s a))

/-- How many steps of the run meet `p` in the state they start from. -/
def count (step : σ → α → σ) (p : σ → α → Prop) [∀ s a, Decidable (p s a)] :
    σ → List α → ℕ
  | _, [] => 0
  | s, a :: actions => (if p s a then 1 else 0) + count step p (step s a) actions

/-- **Potential.**  When every counted step uses up potential and no step adds any, the
count is bounded by the potential there was. -/
theorem count_le_potential {p : σ → α → Prop} [∀ s a, Decidable (p s a)]
    {potential : σ → ℕ}
    (hstep : ∀ s a, (if p s a then 1 else 0) + potential (step s a) ≤ potential s)
    (s : σ) (actions : List α) : count step p s actions ≤ potential s := by
  induction actions generalizing s with
  | nil => exact Nat.zero_le _
  | cons a actions ih =>
    have hrest := ih (step s a)
    have hfirst := hstep s a
    simp only [count]
    omega

/-- **Streaks.**  A counter that a step either starts again or, where the step is `good`, raises by
one, counts steps at the end of the run that are all good. -/
theorem streak {good : σ → α → Prop} {counter : σ → ℕ}
    (hstep : ∀ s a, counter (step s a) = 0 ∨ (good s a ∧ counter (step s a) = counter s + 1))
    {s : σ} (hs : counter s = 0) (actions : List α) {k : ℕ}
    (hk : k < counter (run step s actions)) :
    ∃ before a after, actions = before ++ a :: after ∧ after.length = k ∧
      good (run step s before) a := by
  induction actions using List.reverseRecOn generalizing k with
  | nil =>
    rw [run_nil, hs] at hk
    exact absurd hk (Nat.not_lt_zero k)
  | append_singleton actions a ih =>
    rw [run_append, run_cons, run_nil] at hk
    rcases hstep (run step s actions) a with hzero | ⟨hgood, hcount⟩
    · rw [hzero] at hk
      exact absurd hk (Nat.not_lt_zero k)
    · cases k with
      | zero => exact ⟨actions, a, [], rfl, rfl, hgood⟩
      | succ k =>
        rw [hcount] at hk
        obtain ⟨before, b, after, rfl, hlength, hb⟩ := ih (Nat.lt_of_succ_lt_succ hk)
        refine ⟨before, b, after ++ [a], by simp, ?_, hb⟩
        rw [List.length_append, hlength]
        rfl

end Machine
