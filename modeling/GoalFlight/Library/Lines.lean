import Mathlib.Data.List.Basic
import Mathlib.Tactic.Common

/-!
# Splitting into lines

`splitlines` for any alphabet: which elements end a line, and which two of them together
end one line only.  The reader is a left fold that keeps the open line, so that appending to
a text is going on from where the text stopped.
-/

namespace Lines

variable {α : Type}

/-- What ends a line. -/
structure Breaks (α : Type) where
  /-- The element ends a line. -/
  isBreak : α → Bool
  /-- The second element belongs to the line end of the first. -/
  joins : α → α → Bool
  joins_isBreak : ∀ a b, joins a b = true → isBreak b = true

/-- The lines that have ended, the open one, and the break just read. -/
structure Split (α : Type) where
  ended : List (List α)
  current : List α
  last : Option α

namespace Breaks

variable (k : Breaks α)

/-- One element. -/
def step (s : Split α) (a : α) : Split α :=
  if s.last.any (k.joins · a) then { s with last := none }
  else if k.isBreak a then ⟨s.ended ++ [s.current], [], some a⟩
  else ⟨s.ended, s.current ++ [a], none⟩

/-- The split of a text. -/
def split (text : List α) : Split α := text.foldl k.step ⟨[], [], none⟩

/-- `splitlines`, without the line ends. -/
def lines (text : List α) : List (List α) :=
  let s := k.split text
  if s.current = [] then s.ended else s.ended ++ [s.current]

/-- The text after the last line end. -/
def unterminated (text : List α) : List α := (k.split text).current

theorem step_of_not_break {s : Split α} {a : α} (h : k.isBreak a = false) :
    k.step s a = ⟨s.ended, s.current ++ [a], none⟩ := by
  have hjoins : s.last.any (k.joins · a) = false := by
    cases hlast : s.last with
    | none => rfl
    | some b =>
      show k.joins b a = false
      by_contra hjoin
      rw [Bool.not_eq_false] at hjoin
      rw [k.joins_isBreak b a hjoin] at h
      cases h
  unfold step
  rw [hjoins, h]
  rfl

theorem foldl_of_no_break {s : Split α} {text : List α} (hne : text ≠ [])
    (h : ∀ a ∈ text, k.isBreak a = false) :
    text.foldl k.step s = ⟨s.ended, s.current ++ text, none⟩ := by
  induction text generalizing s with
  | nil => exact absurd rfl hne
  | cons a text ih =>
    rw [List.foldl_cons, k.step_of_not_break (h a List.mem_cons_self)]
    by_cases htext : text = []
    · subst htext
      rfl
    · rw [ih htext fun b hb => h b (List.mem_cons_of_mem _ hb)]
      simp

theorem step_break {ended : List (List α)} {current : List α} {b : α} (hb : k.isBreak b = true) :
    k.step ⟨ended, current, none⟩ b = ⟨ended ++ [current], [], some b⟩ := by
  unfold step
  rw [hb]
  rfl

theorem unterminated_no_break (text : List α) :
    ∀ a ∈ k.unterminated text, k.isBreak a = false := by
  have hfold : ∀ (rest : List α) (s : Split α), (∀ a ∈ s.current, k.isBreak a = false) →
      ∀ a ∈ (rest.foldl k.step s).current, k.isBreak a = false := by
    intro rest
    induction rest with
    | nil => exact fun s hs => hs
    | cons b rest ih =>
      intro s hs
      rw [List.foldl_cons]
      apply ih
      unfold step
      split
      · exact hs
      split
      · intro a ha
        cases ha
      · rename_i hbreak
        intro a ha
        rcases List.mem_append.mp ha with hold | hnew
        · exact hs a hold
        · rw [List.mem_singleton.mp hnew]
          exact Bool.eq_false_iff.mpr hbreak
  exact hfold text ⟨[], [], none⟩ fun a ha => by cases ha

theorem split_append (text rest : List α) :
    k.split (text ++ rest) = rest.foldl k.step (k.split text) :=
  List.foldl_append

theorem lines_eq (text : List α) :
    k.lines text = (k.split text).ended ++
      if k.unterminated text = [] then [] else [k.unterminated text] := by
  show (if (k.split text).current = [] then _ else _) = _ ++ if (k.split text).current = [] then _ else _
  split
  · rw [List.append_nil]
  · rfl

theorem lines_append (text : List α) {rest : List α} (hne : rest ≠ [])
    (h : ∀ a ∈ rest, k.isBreak a = false) :
    k.lines (text ++ rest) = (k.split text).ended ++ [k.unterminated text ++ rest] := by
  rw [lines_eq]
  unfold unterminated
  rw [split_append, k.foldl_of_no_break hne h]
  simp [hne]

theorem split_append_line (text : List α) {rest : List α} {b : α} (hne : rest ≠ [])
    (h : ∀ a ∈ rest, k.isBreak a = false) (hb : k.isBreak b = true) :
    k.split (text ++ (rest ++ [b])) =
      ⟨(k.split text).ended ++ [k.unterminated text ++ rest], [], some b⟩ := by
  rw [split_append, List.foldl_append, k.foldl_of_no_break hne h, List.foldl_cons,
    k.step_break hb, List.foldl_nil]
  rfl

theorem lines_append_line (text : List α) {rest : List α} {b : α} (hne : rest ≠ [])
    (h : ∀ a ∈ rest, k.isBreak a = false) (hb : k.isBreak b = true) :
    k.lines (text ++ (rest ++ [b])) =
      (k.split text).ended ++ [k.unterminated text ++ rest] := by
  rw [lines_eq]
  unfold unterminated
  rw [k.split_append_line text hne h hb]
  simp [unterminated]

theorem foldl_ended (before ended : List (List α)) (current : List α) (last : Option α)
    (rest : List α) :
    rest.foldl k.step ⟨before ++ ended, current, last⟩ =
      { rest.foldl k.step ⟨ended, current, last⟩ with
        ended := before ++ (rest.foldl k.step ⟨ended, current, last⟩).ended } := by
  induction rest generalizing ended current last with
  | nil => rfl
  | cons a rest ih =>
    have hstep : k.step ⟨before ++ ended, current, last⟩ a =
        { k.step ⟨ended, current, last⟩ a with
          ended := before ++ (k.step ⟨ended, current, last⟩ a).ended } := by
      unfold step
      simp only
      split
      · rfl
      split
      · rw [List.append_assoc]
      · rfl
    rw [List.foldl_cons, List.foldl_cons, hstep]
    exact ih _ _ _

/-- **The first line.**  A text without breaks before a break that joins nothing is a line,
and the lines after it are those of the rest. -/
theorem lines_cons_line {text : List α} {b : α} (h : ∀ a ∈ text, k.isBreak a = false)
    (hb : k.isBreak b = true) (hjoins : ∀ a, k.joins b a = false) (rest : List α) :
    k.lines (text ++ b :: rest) = text :: k.lines rest := by
  have hfirst : k.split (text ++ [b]) = ⟨[text], [], some b⟩ := by
    by_cases hne : text = []
    · subst hne
      exact k.step_break hb
    · rw [← List.nil_append (text ++ [b]), k.split_append_line [] hne h hb]
      rfl
  -- The rest is read as from the start.
  have hforget : ∀ ended : List (List α), rest.foldl k.step ⟨ended, [], some b⟩ =
        rest.foldl k.step ⟨ended, [], none⟩ ∨ rest = [] := by
    intro ended
    cases rest with
    | nil => exact .inr rfl
    | cons a rest =>
      left
      have hstep : k.step ⟨ended, [], some b⟩ a = k.step ⟨ended, [], none⟩ a := by
        unfold step
        simp [hjoins]
      rw [List.foldl_cons, List.foldl_cons, hstep]
  have hsplit : k.split (text ++ b :: rest) = rest.foldl k.step ⟨[text], [], some b⟩ := by
    rw [show text ++ b :: rest = (text ++ [b]) ++ rest by simp, split_append, hfirst]
  rcases hforget [text] with hforget | rfl
  · have hended := k.foldl_ended [text] [] [] none rest
    rw [List.append_nil] at hended
    rw [lines_eq, lines_eq]
    unfold unterminated
    rw [hsplit, hforget, hended]
    rfl
  · rw [lines_eq]
    unfold unterminated
    rw [hsplit]
    rfl

/-- Texts written as lines, one after the other. -/
def join (b : α) (texts : List (List α)) : List α := texts.flatMap (· ++ [b])

section

variable {b : α} {texts : List (List α)} (hb : k.isBreak b = true)
  (h : ∀ text ∈ texts, text ≠ [] ∧ ∀ a ∈ text, k.isBreak a = false)
include hb h

theorem split_join (before : List α) (hbefore : k.unterminated before = []) :
    (k.split (before ++ join b texts)).ended = (k.split before).ended ++ texts ∧
      k.unterminated (before ++ join b texts) = [] := by
  induction texts generalizing before with
  | nil =>
    unfold join
    rw [List.flatMap_nil, List.append_nil, List.append_nil]
    exact ⟨rfl, hbefore⟩
  | cons text texts ih =>
    obtain ⟨hne, hbreak⟩ := h text List.mem_cons_self
    have hline := k.split_append_line before hne hbreak hb
    rw [hbefore, List.nil_append] at hline
    have hstep := ih (fun t ht => h t (List.mem_cons_of_mem _ ht)) (before ++ (text ++ [b]))
      (by unfold unterminated; rw [hline])
    rw [hline] at hstep
    have hassoc : before ++ join b (text :: texts) = before ++ (text ++ [b]) ++ join b texts := by
      unfold join
      rw [List.flatMap_cons, ← List.append_assoc]
    rw [hassoc, hstep.1]
    exact ⟨by simp, hstep.2⟩

/-- **Lines read back.** -/
theorem lines_join :
    k.lines (join b texts) = texts := by
  have hsplit := k.split_join hb h [] rfl
  rw [List.nil_append] at hsplit
  rw [lines_eq, hsplit.1, hsplit.2]
  simp [split]

end

end Breaks

end Lines
