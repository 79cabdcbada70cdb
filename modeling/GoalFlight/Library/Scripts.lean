import GoalFlight.Library.Machine

/-!
# Scripts of writes that may be cut short

A *script* is a list of writes, each of which happens whole or not at all.  A crash, or a
write that fails, leaves the state after a prefix of the script.  A step of a machine reads
the state, makes a script of it and gets some way through the script.

A property holds throughout a script when it holds wherever the script is cut
(`throughout_iff_take`).
-/

namespace Machine

universe u v w

variable {σ : Type u} {ω : Type v} {α : Type w} (write : σ → ω → σ)

/-- The property holds before the script, between its writes and after it. -/
def Throughout (P : σ → Prop) : σ → List ω → Prop
  | s, [] => P s
  | s, o :: script => P s ∧ Throughout P (write s o) script

/-- A step that gets a number of writes into its script. -/
def cutStep (script : σ → α → List ω) (s : σ) (a : α × ℕ) : σ :=
  run write s ((script s a.1).take a.2)

variable {write} {P : σ → Prop} {s : σ} {o : ω} {script : List ω}

theorem Throughout.start (h : Throughout write P s script) : P s := by
  cases script with
  | nil => exact h
  | cons o script => exact h.1

theorem Throughout.finish (h : Throughout write P s script) : P (run write s script) := by
  induction script generalizing s with
  | nil => exact h
  | cons o script ih => exact ih h.2

theorem throughout_append {script' : List ω} :
    Throughout write P s (script ++ script') ↔
      Throughout write P s script ∧ Throughout write P (run write s script) script' := by
  induction script generalizing s with
  | nil =>
    constructor
    · intro h
      exact ⟨h.start, h⟩
    · rintro ⟨-, h⟩
      exact h
  | cons o script ih =>
    constructor
    · rintro ⟨hs, hrest⟩
      obtain ⟨hscript, hscript'⟩ := ih.mp hrest
      exact ⟨⟨hs, hscript⟩, hscript'⟩
    · rintro ⟨⟨hs, hscript⟩, hscript'⟩
      exact ⟨hs, ih.mpr ⟨hscript, hscript'⟩⟩

theorem throughout_iff_take :
    Throughout write P s script ↔ ∀ k, P (run write s (script.take k)) := by
  constructor
  · intro h k
    rw [← List.take_append_drop k script, throughout_append] at h
    exact h.1.finish
  · intro h
    induction script generalizing s with
    | nil => exact h 0
    | cons o script ih =>
      refine ⟨h 0, ih ?_⟩
      intro k
      exact h (k + 1)

end Machine
