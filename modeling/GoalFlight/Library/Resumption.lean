import GoalFlight.Library.Machine
import GoalFlight.Library.Threads

/-!
# Programs of critical sections

A *program* is a chain of critical sections on a shared state.  A section changes the state and
chooses the rest of the program by what it finds there and by what the world answers.  Any number
of processes run programs; between two sections of one, the others run theirs.

`Safe` is what one program has to meet: from a state that the others have led to within a relation
`R`, each of its sections keeps the invariant and stays within `R`, and the rest is safe again.
`AllSafe.run` has of it that every run stays within `R`.  Where a section's guard is all in the
shared state no `R` is needed: `Obeys` says that each section is one of a list of changes.
-/

namespace Resumption

universe u v w x

/-- A program over a shared state `σ`, with answers `μ` of the world and labels `ℓ`. -/
inductive Program (σ : Type u) (μ : Type v) (ℓ : Type w)
  | done
  | step (label : ℓ) (write : μ → σ → σ) (rest : μ → σ → Program σ μ ℓ)

variable {σ : Type u} {μ : Type v} {ℓ : Type w} {κ : Type x}

/-- The shared state, and the rest of each process's program. -/
abbrev State (σ : Type u) (μ : Type v) (ℓ : Type w) := Threads.State σ (Program σ μ ℓ)

/-- A process begins a call, or takes its next section. -/
inductive Action (κ : Type x) (μ : Type v)
  | call (p : ℕ) (c : κ)
  | turn (p : ℕ) (answer : μ)

/-- One step of the processes, where `body` has the program of each call. -/
def step (body : κ → Program σ μ ℓ) (s : State σ μ ℓ) : Action κ μ → State σ μ ℓ
  | .call p c =>
    match s.place p with
    | .done => s.turn p (s.shared, body c)
    | .step .. => s
  | .turn p answer =>
    match s.place p with
    | .done => s
    | .step _ write rest => s.turn p (write answer s.shared, rest answer s.shared)

/-- The state and the rest of a program that takes these turns alone. -/
def alone : Program σ μ ℓ → σ → List μ → σ × Program σ μ ℓ
  | P, s, [] => (s, P)
  | .done, s, _ :: _ => (s, .done)
  | .step _ write rest, s, answer :: answers => alone (rest answer s) (write answer s) answers

@[simp] theorem alone_nil (P : Program σ μ ℓ) (s : σ) : alone P s [] = (s, P) := by
  cases P <;> rfl

theorem alone_append (P : Program σ μ ℓ) (s : σ) (before after : List μ) :
    alone P s (before ++ after) = alone (alone P s before).2 (alone P s before).1 after := by
  induction before generalizing P s with
  | nil => rw [alone_nil, List.nil_append]
  | cons answer before ih =>
    cases P with
    | done => cases before <;> cases after <;> rfl
    | step label write rest => exact ih (rest answer s) (write answer s)

/-- The state in which no process is in a call. -/
def idle (shared : σ) : State σ μ ℓ := ⟨shared, fun _ => .done⟩

/-- Only these calls are made, and each section meets the condition of its label in the state
it finds. -/
def Condition (allowed : κ → Prop) (guard : ℓ → σ → Prop) (s : State σ μ ℓ) :
    Action κ μ → Prop
  | .call _ c => allowed c
  | .turn p _ =>
    match s.place p with
    | .done => True
    | .step label _ _ => guard label s.shared

instance (allowed : κ → Prop) [DecidablePred allowed] (guard : ℓ → σ → Prop)
    [∀ label s, Decidable (guard label s)] (s : State σ μ ℓ) (a : Action κ μ) :
    Decidable (Condition allowed guard s a) :=
  match a with
  | .call _ c => inferInstanceAs (Decidable (allowed c))
  | .turn p _ =>
    match h : s.place p with
    | .done => isTrue (by simp [Condition, h])
    | .step label _ _ =>
      decidable_of_iff (guard label s.shared) (by simp [Condition, h])

section Rules

variable {R : σ → σ → Prop} {inv : σ → Prop} {guard : ℓ → σ → Prop}

/-- **A safe program**: whatever the others do within `R`, each section keeps the invariant and
stays within `R`. -/
def Safe (R : σ → σ → Prop) (inv : σ → Prop) (guard : ℓ → σ → Prop) : Program σ μ ℓ → σ → Prop
  | .done, _ => True
  | .step label write rest, s => ∀ s', R s s' → inv s' → guard label s' → ∀ answer,
      R s' (write answer s') ∧ inv (write answer s') ∧
        Safe R inv guard (rest answer s') (write answer s')

theorem Safe.later (htrans : ∀ {a b c}, R a b → R b c → R a c) {P : Program σ μ ℓ} {s s' : σ}
    (h : Safe R inv guard P s) (hR : R s s') : Safe R inv guard P s' := by
  cases P with
  | done => trivial
  | step label write rest => exact fun s'' hR' => h s'' (htrans hR hR')

theorem Safe.of_guard {guard' : ℓ → σ → Prop}
    (hguard : ∀ label s, inv s → guard' label s → guard label s) {P : Program σ μ ℓ} {s : σ}
    (h : Safe R inv guard P s) : Safe R inv guard' P s := by
  induction P generalizing s with
  | done => trivial
  | step label write rest ih =>
    intro s' hR hinv hlabel answer
    obtain ⟨hR', hinv', hrest⟩ := h s' hR hinv (hguard label s' hinv hlabel) answer
    exact ⟨hR', hinv', ih answer s' hrest⟩

/-- Every process's program is safe in the shared state. -/
abbrev AllSafe (R : σ → σ → Prop) (inv : σ → Prop) (guard : ℓ → σ → Prop) (s : State σ μ ℓ) :
    Prop :=
  Threads.Holds inv (fun shared _ P => Safe R inv guard P shared) s

theorem allSafe_idle {shared : σ} (hinv : inv shared) :
    AllSafe R inv guard (idle shared : State σ μ ℓ) := ⟨hinv, fun _ => trivial⟩

variable {body : κ → Program σ μ ℓ} {allowed : κ → Prop} {s : State σ μ ℓ}

/-- **A step** of safe programs stays within `R`, and leaves them safe. -/
theorem AllSafe.step (hrefl : ∀ a, R a a) (htrans : ∀ {a b c}, R a b → R b c → R a c)
    (hbody : ∀ c, allowed c → ∀ s, inv s → Safe R inv guard (body c) s)
    (h : AllSafe R inv guard s) {a : Action κ μ} (hcond : Condition allowed guard s a) :
    AllSafe R inv guard (step body s a) ∧ R s.shared (step body s a).shared := by
  cases a with
  | call p c =>
    unfold Resumption.step
    simp only
    split
    · exact ⟨h.turn h.inv (hbody c hcond s.shared h.inv) fun q _ hq => hq, hrefl _⟩
    · exact ⟨h, hrefl _⟩
  | turn p answer =>
    unfold Resumption.step
    unfold Condition at hcond
    simp only at hcond ⊢
    have hplace := h.ok p
    split
    · exact ⟨h, hrefl _⟩
    · rename_i label write rest hstep
      rw [hstep] at hcond hplace
      obtain ⟨hR, hinv, hrest⟩ := hplace s.shared (hrefl _) h.inv hcond answer
      refine ⟨h.turn hinv hrest fun q _ hq => ?_, hR⟩
      have hlater : Safe R inv guard (s.place q) (write answer s.shared) :=
        Safe.later (R := R) htrans hq hR
      exact hlater

/-- **Run.**  Every run of safe programs that meets the condition stays within `R`. -/
theorem AllSafe.run (hrefl : ∀ a, R a a) (htrans : ∀ {a b c}, R a b → R b c → R a c)
    (hbody : ∀ c, allowed c → ∀ s, inv s → Safe R inv guard (body c) s)
    (h : AllSafe R inv guard s) {actions : List (Action κ μ)}
    (hmeets : Machine.Meets (Resumption.step body) (Condition allowed guard) s actions) :
    AllSafe R inv guard (Machine.run (Resumption.step body) s actions) ∧
      R s.shared (Machine.run (Resumption.step body) s actions).shared := by
  induction actions generalizing s with
  | nil => exact ⟨h, hrefl _⟩
  | cons a actions ih =>
    obtain ⟨hcond, hrest⟩ := hmeets
    obtain ⟨hstep, hR⟩ := h.step hrefl htrans hbody hcond
    obtain ⟨hend, hR'⟩ := ih hstep hrest
    exact ⟨hend, htrans hR hR'⟩

/-- **Run without a condition.**  Where the invariant grants the guards, every run of safe
programs keeps it. -/
theorem AllSafe.run_of_granted (hrefl : ∀ a, R a a) (htrans : ∀ {a b c}, R a b → R b c → R a c)
    (hgranted : ∀ label s, inv s → guard label s)
    (hbody : ∀ c s, inv s → Safe R inv guard (body c) s) {shared : σ} (hinv : inv shared)
    (actions : List (Action κ μ)) :
    inv (Machine.run (Resumption.step body) (idle shared) actions).shared := by
  have hmeets : Machine.Meets (Resumption.step body)
      (Condition (fun _ => True) fun _ _ => True) (idle shared) actions := by
    have htrue : ∀ (s : State σ μ ℓ) (a : Action κ μ), True →
        True ∧ Condition (fun _ => True) (fun _ _ => True) s a := by
      intro s a _
      cases a with
      | call p c => exact ⟨trivial, trivial⟩
      | turn p answer =>
        unfold Condition
        simp only
        split <;> exact ⟨trivial, trivial⟩
    exact Machine.meets_of_preserved htrue trivial
  have hfree : ∀ c, True → ∀ s, inv s → Safe R inv (fun _ _ => True) (body c) s :=
    fun c _ s hs => (hbody c s hs).of_guard fun label s' hs' _ => hgranted label s' hs'
  exact ((allSafe_idle hinv).run hrefl htrans hfree hmeets).1.inv

end Rules

section Changes

variable {change : ℓ → σ → σ → Prop} {inv : σ → Prop} {guard : ℓ → σ → Prop}

/-- **What the sections of a program do**, in whatever state they are taken. -/
def Obeys (change : ℓ → σ → σ → Prop) : Program σ μ ℓ → Prop
  | .done => True
  | .step label write rest => ∀ answer s,
      change label s (write answer s) ∧ Obeys change (rest answer s)

variable {body : κ → Program σ μ ℓ} {allowed : κ → Prop}

/-- **A step** of programs that do no more than these changes is one of them, or changes
nothing. -/
theorem step_obeys (hbody : ∀ c, Obeys change (body c))
    (h : ∀ p, Obeys change (s.place p)) {a : Action κ μ} (hcond : Condition allowed guard s a) :
    (∀ p, Obeys change ((step body s a).place p)) ∧
      ((step body s a).shared = s.shared ∨
        ∃ label, guard label s.shared ∧ change label s.shared (step body s a).shared) := by
  have hturn : ∀ p x, Obeys change x.2 → ∀ q, Obeys change ((s.turn p x).place q) := by
    intro p x hx q
    by_cases hq : q = p
    · rw [hq, s.turn_place_self]
      exact hx
    · rw [s.turn_place_of_ne hq]
      exact h q
  cases a with
  | call p c =>
    unfold Resumption.step
    simp only
    split
    · exact ⟨hturn p _ (hbody c), .inl rfl⟩
    · exact ⟨h, .inl rfl⟩
  | turn p answer =>
    unfold Resumption.step
    unfold Condition at hcond
    simp only at hcond ⊢
    split
    · exact ⟨h, .inl rfl⟩
    · rename_i label write rest hplace
      have hobeys := h p
      rw [hplace] at hcond hobeys
      obtain ⟨hchange, hrest⟩ := hobeys answer s.shared
      exact ⟨hturn p _ hrest, .inr ⟨label, hcond, hchange⟩⟩

/-- **Run.**  An invariant that the changes keep, where the condition is met, holds at the end of
every run whose steps meet it, and the programs do still no more than these changes. -/
theorem run_obeys (hbody : ∀ c, Obeys change (body c))
    (hkeeps : ∀ label s s', inv s → guard label s → change label s s' → inv s') (hs : inv s.shared) (h : ∀ p, Obeys change (s.place p))
    {actions : List (Action κ μ)}
    (hmeets : Machine.Meets (Resumption.step body) (Condition allowed guard) s actions) :
    inv (Machine.run (Resumption.step body) s actions).shared ∧
      ∀ p, Obeys change ((Machine.run (Resumption.step body) s actions).place p) := by
  induction actions generalizing s with
  | nil => exact ⟨hs, h⟩
  | cons a actions ih =>
    obtain ⟨hcond, hrest⟩ := hmeets
    obtain ⟨hplace, hchange⟩ := step_obeys hbody h hcond
    refine ih ?_ hplace hrest
    rcases hchange with hsame | ⟨label, hguard, hchange⟩
    · rw [hsame]
      exact hs
    · exact hkeeps label _ _ hs hguard hchange

end Changes

end Resumption
