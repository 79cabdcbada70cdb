import Mathlib.Data.List.Basic
import Mathlib.Data.Nat.Notation
import Mathlib.Tactic.Common

/-!
# Replacing what matches

`pattern.sub(marker, text)`: from left to right, each match is replaced and scanning goes on
behind it.  A text that is cut can be rewritten in parts, if no match goes over the cut
(`sub_append`); `carry` is what is left of such a match.  What has been written is not matched again
(`quiet_sub`), where the marker is inert.
-/

namespace Substitution

variable {α : Type}

/-- A pattern: how long the match at the start of a text is, `0` where there is none.  More text
can only make a match longer, and a match that does not reach the end of a text is one of the
text. -/
structure Pattern (α : Type) where
  matchLength : List α → ℕ
  mono : ∀ text more, matchLength text ≤ matchLength (text ++ more)
  stable : ∀ text more, matchLength (text ++ more) ≤ text.length →
    matchLength text = matchLength (text ++ more)
  le : ∀ text, matchLength text ≤ text.length

namespace Pattern

variable (pattern : Pattern α)

/-- `pattern.sub(marker, text)`, with this much of a match still to be left out. -/
def subFrom (marker : List α) : ℕ → List α → List α
  | _, [] => []
  | skip + 1, _ :: rest => subFrom marker skip rest
  | 0, c :: rest =>
    match pattern.matchLength (c :: rest) with
    | 0 => c :: subFrom marker 0 rest
    | length + 1 => marker ++ subFrom marker length rest

/-- `pattern.sub(marker, text)`. -/
def sub (marker text : List α) : List α := pattern.subFrom marker 0 text

/-- Which elements are in a match. -/
def maskFrom : ℕ → List α → List Bool
  | _, [] => []
  | skip + 1, _ :: rest => true :: maskFrom skip rest
  | 0, c :: rest =>
    match pattern.matchLength (c :: rest) with
    | 0 => false :: maskFrom 0 rest
    | length + 1 => true :: maskFrom length rest

/-- Which elements are in a match. -/
def mask (text : List α) : List Bool := pattern.maskFrom 0 text

/-- How much of a match is left behind a text, when it goes on so. -/
def carryFrom (more : List α) : ℕ → List α → ℕ
  | skip, [] => skip
  | skip + 1, _ :: rest => carryFrom more skip rest
  | 0, c :: rest => carryFrom more (pattern.matchLength (c :: rest ++ more) - 1) rest

/-- How much of a match goes over the cut between two texts. -/
def carry (text more : List α) : ℕ := pattern.carryFrom more 0 text

variable {pattern} {marker text more : List α}

@[simp] theorem sub_nil : pattern.sub marker [] = [] := rfl

theorem sub_cons_of_no_match {c : α} {rest : List α}
    (h : pattern.matchLength (c :: rest) = 0) :
    pattern.sub marker (c :: rest) = c :: pattern.sub marker rest := by
  show pattern.subFrom marker 0 (c :: rest) = _
  unfold subFrom
  rw [h]
  rfl

theorem subFrom_drop (skip : ℕ) (text : List α) :
    pattern.subFrom marker skip text = pattern.sub marker (text.drop skip) := by
  induction text generalizing skip with
  | nil => cases skip <;> rfl
  | cons c rest ih =>
    cases skip with
    | zero => rfl
    | succ skip => exact ih skip

theorem sub_of_match (h : 0 < pattern.matchLength text) :
    pattern.sub marker text =
      marker ++ pattern.sub marker (text.drop (pattern.matchLength text)) := by
  cases text with
  | nil => exact absurd (pattern.le []) (Nat.not_le.mpr h)
  | cons c rest =>
    show pattern.subFrom marker 0 (c :: rest) = _
    unfold subFrom
    cases hlength : pattern.matchLength (c :: rest) with
    | zero => exact absurd hlength (Nat.ne_of_gt h)
    | succ length =>
      simp only
      rw [subFrom_drop]
      rfl

@[simp] theorem length_maskFrom (skip : ℕ) (text : List α) :
    (pattern.maskFrom skip text).length = text.length := by
  induction text generalizing skip with
  | nil => cases skip <;> rfl
  | cons c rest ih =>
    cases skip with
    | succ skip => simp [maskFrom, ih]
    | zero =>
      unfold maskFrom
      cases pattern.matchLength (c :: rest) <;> simp [ih]

@[simp] theorem length_mask (text : List α) : (pattern.mask text).length = text.length :=
  length_maskFrom 0 text

theorem count_sub [DecidableEq α] {r : α} (hmarker : r ∉ marker)
    (hmatch : ∀ text : List α, r ∉ text.take (pattern.matchLength text)) (text : List α) :
    (pattern.sub marker text).count r = text.count r := by
  generalize hlength : text.length = n
  induction n using Nat.strongRecOn generalizing text with
  | ind n ih =>
    cases text with
    | nil => rfl
    | cons c rest =>
      rw [List.length_cons] at hlength
      by_cases h : pattern.matchLength (c :: rest) = 0
      · rw [sub_cons_of_no_match h, List.count_cons, List.count_cons,
          ih rest.length (by omega) rest rfl]
      · have hpos := Nat.pos_of_ne_zero h
        have hdrop : ((c :: rest).drop (pattern.matchLength (c :: rest))).length < n := by
          rw [List.length_drop, List.length_cons]
          omega
        have hsplit := congrArg (List.count r)
          (List.take_append_drop (pattern.matchLength (c :: rest)) (c :: rest))
        rw [List.count_append, List.count_eq_zero.mpr (hmatch (c :: rest))] at hsplit
        rw [sub_of_match hpos, List.count_append, List.count_eq_zero.mpr hmarker,
          ih _ hdrop _ rfl]
        exact hsplit

/-! ### Cuts -/

variable {skip : ℕ}

theorem le_of_carryFrom (h : pattern.carryFrom more skip text = 0) :
    skip ≤ text.length := by
  induction text generalizing skip with
  | nil =>
    unfold carryFrom at h
    omega
  | cons c rest ih =>
    cases skip with
    | zero => exact Nat.zero_le _
    | succ skip => exact Nat.succ_le_succ (ih h)

theorem parts_of_carryFrom (h : pattern.carryFrom more skip text = 0) :
    pattern.subFrom marker skip (text ++ more) =
        pattern.subFrom marker skip text ++ pattern.sub marker more ∧
      pattern.maskFrom skip (text ++ more) =
        pattern.maskFrom skip text ++ pattern.mask more := by
  induction text generalizing skip with
  | nil =>
    unfold carryFrom at h
    subst h
    exact ⟨rfl, rfl⟩
  | cons c rest ih =>
    cases skip with
    | succ skip =>
      obtain ⟨hsub, hmask⟩ := ih h
      exact ⟨hsub, congrArg (true :: ·) hmask⟩
    | zero =>
      -- a match that starts here does not go over the cut
      unfold carryFrom at h
      have hle := le_of_carryFrom h
      have hsame : pattern.matchLength (c :: rest) = pattern.matchLength (c :: rest ++ more) := by
        apply pattern.stable
        rw [List.length_cons]
        omega
      obtain ⟨hsub, hmask⟩ := ih h
      rw [← hsame] at hsub hmask
      rw [List.cons_append] at hsame ⊢
      unfold subFrom maskFrom
      rw [← hsame]
      cases hlength : pattern.matchLength (c :: rest) with
      | zero =>
        rw [hlength] at hsub hmask
        exact ⟨congrArg (c :: ·) hsub, congrArg (false :: ·) hmask⟩
      | succ length =>
        rw [hlength, Nat.add_sub_cancel] at hsub hmask
        simp only [hsub, hmask, List.append_assoc, List.cons_append, and_self]

/-- **A cut in no match**: the parts are rewritten on their own. -/
theorem sub_append (h : pattern.carry text more = 0) :
    pattern.sub marker (text ++ more) = pattern.sub marker text ++ pattern.sub marker more :=
  (parts_of_carryFrom h).1

theorem mask_append (h : pattern.carry text more = 0) :
    pattern.mask (text ++ more) = pattern.mask text ++ pattern.mask more :=
  (@parts_of_carryFrom _ pattern [] text more 0 h).2

/-- **A cut in a match**: the match starts somewhere before the cut, and goes over it. -/
theorem exists_of_carryFrom (h : pattern.carryFrom more skip text ≠ 0)
    (hskip : skip ≤ text.length) :
    ∃ before after, text = before ++ after ∧ after ≠ [] ∧
      pattern.carryFrom (after ++ more) skip before = 0 ∧
      after.length < pattern.matchLength (after ++ more) := by
  induction text generalizing skip with
  | nil =>
    unfold carryFrom at h
    exact absurd (Nat.le_zero.mp hskip) h
  | cons c rest ih =>
    cases skip with
    | succ skip =>
      obtain ⟨before, after, rfl, hne, hcarry, hlt⟩ := ih h
        (Nat.le_of_succ_le_succ hskip)
      exact ⟨c :: before, after, rfl, hne, hcarry, hlt⟩
    | zero =>
      by_cases hlong : (c :: rest).length < pattern.matchLength (c :: rest ++ more)
      · exact ⟨[], c :: rest, rfl, List.cons_ne_nil _ _, rfl, hlong⟩
      · unfold carryFrom at h
        rw [List.length_cons] at hlong
        obtain ⟨before, after, rfl, hne, hcarry, hlt⟩ := ih h (by omega)
        refine ⟨c :: before, after, rfl, hne, ?_, hlt⟩
        unfold carryFrom
        rw [List.cons_append, ← List.append_assoc]
        exact hcarry

theorem exists_of_carry (h : pattern.carry text more ≠ 0) :
    ∃ before after, text = before ++ after ∧ after ≠ [] ∧
      pattern.carry before (after ++ more) = 0 ∧
      after.length < pattern.matchLength (after ++ more) :=
  exists_of_carryFrom h (Nat.zero_le _)

theorem carryFrom_of_append {extra : List α}
    (h : pattern.carryFrom (more ++ extra) skip text = 0) :
    pattern.carryFrom more skip text = 0 := by
  induction text generalizing skip with
  | nil => exact h
  | cons c rest ih =>
    cases skip with
    | succ skip => exact ih h
    | zero =>
      unfold carryFrom at h ⊢
      have hle := le_of_carryFrom h
      have hsame : pattern.matchLength (c :: rest ++ more) =
          pattern.matchLength (c :: rest ++ (more ++ extra)) := by
        rw [← List.append_assoc] at hle ⊢
        apply pattern.stable
        rw [List.length_append, List.length_cons]
        omega
      rw [hsame]
      exact ih h

theorem carry_of_append {extra : List α} (h : pattern.carry text (more ++ extra) = 0) :
    pattern.carry text more = 0 := carryFrom_of_append h

/-! ### What is written -/

/-- No match starts in the text, when it goes on so. -/
def Quiet (pattern : Pattern α) (text more : List α) : Prop :=
  ∀ start, start ≠ [] → start <:+ text → pattern.matchLength (start ++ more) = 0

theorem Quiet.of_suffix {tail : List α} (h : pattern.Quiet text more) (hsuffix : tail <:+ text) :
    pattern.Quiet tail more :=
  fun start hne hstart => h start hne (hstart.trans hsuffix)

theorem sub_of_quiet (h : pattern.Quiet text more) :
    pattern.sub marker (text ++ more) = text ++ pattern.sub marker more := by
  induction text with
  | nil => rfl
  | cons c rest ih =>
    have hmatch := h _ (List.cons_ne_nil c rest) List.suffix_rfl
    rw [List.cons_append] at hmatch ⊢
    rw [sub_cons_of_no_match hmatch, ih (h.of_suffix (List.suffix_cons c rest)), List.cons_append]

/-- A marker that no match reaches into or starts in. -/
structure Inert (pattern : Pattern α) (marker : List α) : Prop where
  reaches : ∀ before after, pattern.matchLength (before ++ (marker ++ after)) ≤ before.length
  starts : ∀ after, pattern.Quiet marker after

/-- What is written for a text starts as the text does, up to a first marker. -/
theorem sub_eq_or (text : List α) : pattern.sub marker text = text ∨ ∃ before behind after,
    text = before ++ behind ∧ pattern.sub marker text = before ++ (marker ++ after) := by
  induction text with
  | nil => exact .inl rfl
  | cons c rest ih =>
    by_cases hmatch : pattern.matchLength (c :: rest) = 0
    · rw [sub_cons_of_no_match hmatch]
      rcases ih with heq | ⟨before, behind, after, hrest, hsub⟩
      · exact .inl (congrArg (c :: ·) heq)
      · exact .inr ⟨c :: before, behind, after, congrArg (c :: ·) hrest, congrArg (c :: ·) hsub⟩
    · exact .inr ⟨[], c :: rest, _, rfl, sub_of_match (Nat.pos_of_ne_zero hmatch)⟩

theorem carry_cons {c : α} (h : pattern.carry (c :: text) more = 0) :
    pattern.matchLength (c :: text ++ more) = pattern.matchLength (c :: text) ∧
      pattern.carryFrom more (pattern.matchLength (c :: text) - 1) text = 0 := by
  have hle := le_of_carryFrom (show pattern.carryFrom more _ text = 0 from h)
  have hsame : pattern.matchLength (c :: text) = pattern.matchLength (c :: text ++ more) := by
    apply pattern.stable
    rw [List.length_cons]
    omega
  exact ⟨hsame.symm, hsame ▸ h⟩

theorem carryFrom_drop (h : pattern.carryFrom more skip text = 0) :
    pattern.carry (text.drop skip) more = 0 := by
  induction text generalizing skip with
  | nil => simp [carry, carryFrom]
  | cons c rest ih =>
    cases skip with
    | zero => exact h
    | succ skip => exact ih h

theorem carryFrom_nil (hskip : skip ≤ text.length) :
    pattern.carryFrom [] skip text = 0 := by
  induction text generalizing skip with
  | nil => exact Nat.le_zero.mp hskip
  | cons c rest ih =>
    cases skip with
    | zero =>
      have hle := pattern.le (c :: rest)
      rw [List.length_cons] at hle
      unfold carryFrom
      rw [List.append_nil]
      exact ih (by omega)
    | succ skip => exact ih (Nat.le_of_succ_le_succ hskip)

theorem carry_nil : pattern.carry text [] = 0 := carryFrom_nil (Nat.zero_le _)

/-- **What is written is quiet**, also when more comes behind it, if no match goes over the cut. -/
theorem quiet_sub (hmarker : pattern.Inert marker) (h : pattern.carry text more = 0) :
    pattern.Quiet (pattern.sub marker text) more := by
  generalize hlength : text.length = n
  induction n using Nat.strongRecOn generalizing text with
  | ind n ih =>
    cases text with
    | nil => exact fun start hne hstart => absurd (List.suffix_nil.mp hstart) hne
    | cons c rest =>
      obtain ⟨hsame, hcarry⟩ := carry_cons h
      rw [List.length_cons] at hlength
      by_cases hmatch : pattern.matchLength (c :: rest) = 0
      · rw [hmatch] at hcarry hsame
        have hrest := ih rest.length (by omega) hcarry rfl
        rw [sub_cons_of_no_match hmatch]
        intro start hne hstart
        rcases List.suffix_cons_iff.mp hstart with rfl | hstart
        · -- a match that starts here is one of the text before anything was replaced
          rcases (sub_eq_or rest : pattern.sub marker rest = rest ∨ _) with
            heq | ⟨before, behind, after, hsplit, hsub⟩
          · rw [heq, hsame]
          · rw [hsub]
            have hreach := hmarker.reaches (c :: before) (after ++ more)
            have hwhole : c :: (before ++ (marker ++ after)) ++ more =
                c :: before ++ (marker ++ (after ++ more)) := by simp
            rw [hwhole, ← pattern.stable (c :: before) _ hreach]
            have hmono := pattern.mono (c :: before) (behind ++ more)
            rw [hsplit] at hsame
            simp only [List.cons_append, List.append_assoc] at hsame hmono
            omega
        · exact hrest start hne hstart
      · rw [sub_of_match (Nat.pos_of_ne_zero hmatch)]
        obtain ⟨length, hlen⟩ := Nat.exists_eq_succ_of_ne_zero hmatch
        rw [hlen, Nat.succ_sub_one] at hcarry
        rw [hlen, Nat.succ_eq_add_one, List.drop_succ_cons]
        have hrest := ih (rest.drop length).length (by rw [List.length_drop]; omega)
          (carryFrom_drop hcarry) rfl
        intro start hne hstart
        obtain ⟨before, hbefore⟩ := hstart
        rcases List.append_eq_append_iff.mp hbefore with ⟨w, rfl, rfl⟩ | ⟨w, -, hw⟩
        · by_cases hw : w = []
          · subst hw
            exact hrest _ hne List.suffix_rfl
          · rw [List.append_assoc]
            exact hmarker.starts _ w hw (List.suffix_append _ _)
        · exact hrest start hne ⟨w, hw.symm⟩

end Pattern

end Substitution
