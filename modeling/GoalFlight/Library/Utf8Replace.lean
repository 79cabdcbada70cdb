import Mathlib.Data.List.Induction
import GoalFlight.Library.Utf8

/-!
# UTF-8 with replacement

`bytes.decode("utf-8", errors="replace")`: what cannot be the start of a character becomes
U+FFFD, and so does the start of a character that does not go on.  The decoder is a left fold
that keeps the character it is in, so that bytes can be cut where no character goes on
(`decodeReplace_append`).
-/

namespace Utf8

/-- A character that is not complete: the bits so far, the bounds of the next byte, which is no
ASCII one, and how many bytes are still to come. -/
structure Begun where
  bits : ℕ
  low : ℕ
  high : ℕ
  more : ℕ
  low_wide : 0x80 ≤ low

/-- The text so far, and the character that has begun. -/
structure Decoder where
  text : List Char
  begun : Option Begun

/-- U+FFFD. -/
def replacement : Char := Char.ofNat 0xFFFD

namespace Decoder

/-- The first byte of a character. -/
def first (text : List Char) (n : ℕ) : Decoder :=
  if n < 0x80 then ⟨text ++ [Char.ofNat n], none⟩
  else if n < 0xC2 then ⟨text ++ [replacement], none⟩
  else if n < 0xE0 then ⟨text, some ⟨n - 0xC0, 0x80, 0xBF, 1, Nat.le_refl _⟩⟩
  else if n < 0xF0 then
    ⟨text, some ⟨n - 0xE0, if n = 0xE0 then 0xA0 else 0x80, if n = 0xED then 0x9F else 0xBF, 2,
      by split <;> omega⟩⟩
  else if n < 0xF5 then
    ⟨text, some ⟨n - 0xF0, if n = 0xF0 then 0x90 else 0x80, if n = 0xF4 then 0x8F else 0xBF, 3,
      by split <;> omega⟩⟩
  else ⟨text ++ [replacement], none⟩

/-- The text, with what has begun replaced. -/
def finish (d : Decoder) : List Char :=
  match d.begun with
  | none => d.text
  | some _ => d.text ++ [replacement]

/-- One byte. -/
def step (d : Decoder) (b : UInt8) : Decoder :=
  match d.begun with
  | none => first d.text b.toNat
  | some u =>
    if u.low ≤ b.toNat ∧ b.toNat ≤ u.high then
      let bits := u.bits * 64 + (b.toNat - 0x80)
      if u.more ≤ 1 then ⟨d.text ++ [Char.ofNat bits], none⟩
      else ⟨d.text, some ⟨bits, 0x80, 0xBF, u.more - 1, Nat.le_refl _⟩⟩
    else first d.finish b.toNat

/-- More text in front. -/
def after (text : List Char) (d : Decoder) : Decoder := { d with text := text ++ d.text }

theorem finish_after (text : List Char) (d : Decoder) :
    (d.after text).finish = text ++ d.finish := by
  obtain ⟨own, begun⟩ := d
  cases begun <;> simp [finish, after]

theorem first_after (text own : List Char) (n : ℕ) :
    first (text ++ own) n = (first own n).after text := by
  unfold first after
  repeat' split
  all_goals simp_all

theorem step_after (text : List Char) (d : Decoder) (b : UInt8) :
    (d.after text).step b = (d.step b).after text := by
  obtain ⟨own, begun⟩ := d
  cases begun with
  | none => exact first_after text own b.toNat
  | some u =>
    have hfinish := finish_after text ⟨own, some u⟩
    unfold step
    simp only [after] at hfinish ⊢
    split
    · split <;> simp
    · rw [hfinish, first_after]
      rfl

theorem foldl_after (text : List Char) (bytes : Bytes) (d : Decoder) :
    bytes.foldl step (d.after text) = (bytes.foldl step d).after text := by
  induction bytes generalizing d with
  | nil => rfl
  | cons b bytes ih => rw [List.foldl_cons, List.foldl_cons, step_after, ih]

end Decoder

/-- `bytes.decode("utf-8", errors="replace")`. -/
def decodeReplace (bytes : Bytes) : List Char := (bytes.foldl Decoder.step ⟨[], none⟩).finish

@[simp] theorem decodeReplace_nil : decodeReplace [] = [] := rfl

/-! ### Cuts -/

namespace Decoder

/-- What the bounds of a next byte leave of the bytes: none of them starts a character. -/
def Bounded (d : Decoder) : Prop := ∀ u ∈ d.begun, u.high ≤ 0xBF

theorem first_bounded (text : List Char) (n : ℕ) : (first text n).Bounded := by
  have hnone : ∀ text, Bounded ⟨text, none⟩ := fun text u hu => absurd hu (by simp)
  have hsome : ∀ text (u : Begun), u.high ≤ 0xBF → Bounded ⟨text, some u⟩ := by
    intro text u hu u' hu'
    rwa [← Option.some.inj hu']
  unfold first
  split
  · exact hnone _
  split
  · exact hnone _
  split
  · exact hsome _ _ (Nat.le_refl _)
  split
  · refine hsome _ _ ?_
    simp only
    split <;> omega
  split
  · refine hsome _ _ ?_
    simp only
    split <;> omega
  · exact hnone _

theorem step_bounded (d : Decoder) (b : UInt8) : (d.step b).Bounded := by
  unfold step
  cases d.begun with
  | none => exact first_bounded _ _
  | some u =>
    simp only
    split
    · split
      · exact fun u' hu' => absurd hu' (by simp)
      · intro u' hu'
        cases Option.some.inj hu'
        exact Nat.le_refl _
    · exact first_bounded _ _

end Decoder

/-- The decoder when it has read the bytes. -/
def decoderOf (bytes : Bytes) : Decoder := bytes.foldl Decoder.step ⟨[], none⟩

theorem decoderOf_bounded (bytes : Bytes) : (decoderOf bytes).Bounded := by
  induction bytes using List.reverseRecOn with
  | nil =>
    intro u hu
    cases hu
  | append_singleton bytes b _ =>
    unfold decoderOf
    rw [List.foldl_append]
    exact Decoder.step_bounded _ b

/-- **The cut is in a character**: the next byte goes on with the last one before the cut. -/
def inCharacter (before after : Bytes) : Bool :=
  match (decoderOf before).begun, after with
  | some u, b :: _ => u.low ≤ b.toNat && b.toNat ≤ u.high
  | _, _ => false

theorem foldl_of_not_inCharacter {before after : Bytes} (h : inCharacter before after = false)
    (hne : after ≠ []) :
    after.foldl Decoder.step (decoderOf before) =
      (decoderOf after).after (decodeReplace before) := by
  cases after with
  | nil => exact absurd rfl hne
  | cons b after =>
    have hfirst : (decoderOf before).step b =
        ((⟨[], none⟩ : Decoder).step b).after (decodeReplace before) := by
      unfold inCharacter at h
      unfold decodeReplace
      rw [← decoderOf]
      generalize decoderOf before = d at h ⊢
      obtain ⟨text, begun⟩ := d
      have hempty : ∀ text : List Char, Decoder.first text b.toNat =
          ((⟨[], none⟩ : Decoder).step b).after text := by
        intro text
        have := Decoder.first_after text [] b.toNat
        rw [List.append_nil] at this
        exact this
      cases begun with
      | none => exact hempty text
      | some u =>
        have hout : ¬ (u.low ≤ b.toNat ∧ b.toNat ≤ u.high) := by
          simpa using h
        show (if u.low ≤ b.toNat ∧ b.toNat ≤ u.high then _ else Decoder.first _ b.toNat) = _
        rw [if_neg hout]
        exact hempty _
    rw [List.foldl_cons, hfirst, Decoder.foldl_after]
    rfl

/-- **A cut in no character**: the parts are decoded on their own. -/
theorem decodeReplace_append {before after : Bytes} (h : inCharacter before after = false) :
    decodeReplace (before ++ after) = decodeReplace before ++ decodeReplace after := by
  by_cases hne : after = []
  · subst hne
    simp
  · have hfold := foldl_of_not_inCharacter h hne
    unfold decodeReplace at hfold ⊢
    rw [List.foldl_append, ← decoderOf, hfold, Decoder.finish_after]
    rfl

/-! ### Replacements -/

/-- How often a text has U+FFFD. -/
def replacements (text : List Char) : ℕ := text.count replacement

@[simp] theorem replacements_nil : replacements [] = 0 := rfl

@[simp] theorem replacements_self (text : List Char) :
    replacements (replacement :: text) = replacements text + 1 := List.count_cons_self

@[simp] theorem replacements_append (text more : List Char) :
    replacements (text ++ more) = replacements text + replacements more := List.count_append

theorem replacements_singleton_le (c : Char) : replacements [c] ≤ 1 := List.count_le_length

theorem decodeReplace_cons_of_wide {b : UInt8} (hlow : 0x80 ≤ b.toNat) (hhigh : b.toNat ≤ 0xBF)
    (rest : Bytes) : decodeReplace (b :: rest) = replacement :: decodeReplace rest := by
  have hstep : (⟨[], none⟩ : Decoder).step b = Decoder.after [replacement] ⟨[], none⟩ := by
    show Decoder.first [] b.toNat = _
    unfold Decoder.first
    rw [if_neg (by omega), if_pos (by omega)]
    rfl
  unfold decodeReplace
  rw [List.foldl_cons, hstep, Decoder.foldl_after, Decoder.finish_after]
  rfl

theorem replacements_goes_on {u : Begun} {b : UInt8} (hin : u.low ≤ b.toNat ∧ b.toNat ≤ u.high)
    {rest : Bytes} (hrest : ∀ u : Begun, u.high ≤ 0xBF →
      replacements (rest.foldl Decoder.step ⟨[], some u⟩).finish ≤
        replacements (decodeReplace rest) + 1) :
    replacements ((b :: rest).foldl Decoder.step ⟨[], some u⟩).finish ≤
      replacements (decodeReplace rest) + 1 := by
  rw [List.foldl_cons]
  by_cases hmore : u.more ≤ 1
  · have hstep : Decoder.step ⟨[], some u⟩ b =
        Decoder.after [Char.ofNat (u.bits * 64 + (b.toNat - 0x80))] ⟨[], none⟩ := by
      simp [Decoder.step, hin, hmore, Decoder.after]
    have hone := replacements_singleton_le (Char.ofNat (u.bits * 64 + (b.toNat - 0x80)))
    rw [hstep, Decoder.foldl_after, Decoder.finish_after, replacements_append]
    unfold decodeReplace
    omega
  · have hstep : Decoder.step ⟨[], some u⟩ b =
        ⟨[], some ⟨u.bits * 64 + (b.toNat - 0x80), 0x80, 0xBF, u.more - 1, Nat.le_refl _⟩⟩ := by
      simp [Decoder.step, hin, hmore]
    rw [hstep]
    exact hrest _ (Nat.le_refl _)

theorem replacements_begun (rest : Bytes) (u : Begun) (hu : u.high ≤ 0xBF) :
    replacements (rest.foldl Decoder.step ⟨[], some u⟩).finish ≤
      replacements (decodeReplace rest) + 1 := by
  induction rest generalizing u with
  | nil => exact Nat.le_of_eq (replacements_self [])
  | cons b rest ih =>
    by_cases hin : u.low ≤ b.toNat ∧ b.toNat ≤ u.high
    · have hwide := u.low_wide
      have hrest := replacements_goes_on hin ih
      rw [decodeReplace_cons_of_wide (by omega) (by omega), replacements_self]
      omega
    · have hstep : Decoder.step ⟨[], some u⟩ b =
          ((⟨[], none⟩ : Decoder).step b).after [replacement] := by
        have hfirst := Decoder.first_after [replacement] [] b.toNat
        rw [List.append_nil] at hfirst
        show (if u.low ≤ b.toNat ∧ b.toNat ≤ u.high then _ else Decoder.first _ b.toNat) = _
        rw [if_neg hin]
        exact hfirst
      rw [List.foldl_cons, hstep, Decoder.foldl_after, Decoder.finish_after, replacements_append,
        replacements_self, replacements_nil]
      unfold decodeReplace
      rw [List.foldl_cons]
      omega

/-- **A cut in a character** makes replacements that the whole does not have. -/
theorem replacements_decode_append (before after : Bytes) :
    replacements (decodeReplace (before ++ after)) ≤
        replacements (decodeReplace before) + replacements (decodeReplace after) ∧
      (inCharacter before after = true →
        replacements (decodeReplace (before ++ after)) <
          replacements (decodeReplace before) + replacements (decodeReplace after)) := by
  have hlt : inCharacter before after = true →
      replacements (decodeReplace (before ++ after)) <
        replacements (decodeReplace before) + replacements (decodeReplace after) := by
    intro h
    have hbounded := decoderOf_bounded before
    unfold inCharacter at h
    have hwhole : decodeReplace (before ++ after) =
        (after.foldl Decoder.step (decoderOf before)).finish := by
      unfold decodeReplace
      rw [List.foldl_append]
      rfl
    rw [hwhole]
    unfold decodeReplace at hwhole ⊢
    rw [← decoderOf]
    generalize decoderOf before = d at h hbounded ⊢
    obtain ⟨text, begun⟩ := d
    cases begun with
    | none => cases h
    | some u =>
      cases after with
      | nil => cases h
      | cons b after =>
        obtain ⟨hlow, hhigh⟩ : u.low ≤ b.toNat ∧ b.toNat ≤ u.high := by simpa using h
        have hu : u.high ≤ 0xBF := hbounded u rfl
        have hwide := u.low_wide
        have hstart : (⟨text, some u⟩ : Decoder) = Decoder.after text ⟨[], some u⟩ := by
          simp [Decoder.after]
        have hrest := replacements_goes_on ⟨hlow, hhigh⟩ (replacements_begun after)
        have hafter := decodeReplace_cons_of_wide (b := b) (by omega) (by omega) after
        have hbegun : replacements (Decoder.finish ⟨[], some u⟩) = 1 := replacements_self []
        unfold decodeReplace at hafter hrest
        rw [hstart, Decoder.foldl_after, Decoder.finish_after, Decoder.finish_after, hafter,
          replacements_append, replacements_append, replacements_self, hbegun]
        omega
  refine ⟨?_, hlt⟩
  cases h : inCharacter before after with
  | true => exact Nat.le_of_lt (hlt h)
  | false =>
    refine Nat.le_of_eq ?_
    rw [decodeReplace_append h, replacements_append]

/-! ### Bytes and their characters -/

/-- The character that a byte is decoded into, or is replaced with, by its place in the text. -/
def charOf (bytes : Bytes) (i : ℕ) : ℕ :=
  let d := decoderOf (bytes.take (i + 1))
  if d.begun.isSome then d.text.length else d.text.length - 1

namespace Decoder

theorem length_first (text : List Char) (n : ℕ) :
    (first text n).finish.length = text.length + 1 ∧
      ((first text n).begun = none → (first text n).text ≠ []) := by
  unfold first
  repeat' split
  all_goals simp [finish]

theorem length_step (d : Decoder) (b : UInt8) :
    d.finish.length ≤ (d.step b).finish.length ∧ ((d.step b).begun = none → (d.step b).text ≠ []) := by
  obtain ⟨text, begun⟩ := d
  unfold step
  cases begun with
  | none =>
    obtain ⟨hlength, hne⟩ := length_first text b.toNat
    refine ⟨?_, hne⟩
    simp only
    rw [hlength]
    exact Nat.le_succ _
  | some u =>
    simp only
    split
    · split <;> simp [finish]
    · obtain ⟨hlength, hne⟩ := length_first (finish ⟨text, some u⟩) b.toNat
      refine ⟨?_, hne⟩
      rw [hlength]
      exact Nat.le_succ _

theorem length_foldl (bytes : Bytes) (d : Decoder) :
    d.finish.length ≤ (bytes.foldl step d).finish.length := by
  induction bytes generalizing d with
  | nil => exact Nat.le_refl _
  | cons b bytes ih => exact Nat.le_trans (length_step d b).1 (ih _)

end Decoder

theorem text_ne_nil {bytes : Bytes} (hne : bytes ≠ []) (h : (decoderOf bytes).begun = none) :
    (decoderOf bytes).text ≠ [] := by
  induction bytes using List.reverseRecOn with
  | nil => exact absurd rfl hne
  | append_singleton bytes b _ =>
    unfold decoderOf at h ⊢
    rw [List.foldl_append] at h ⊢
    exact (Decoder.length_step _ b).2 h

theorem charOf_lt {bytes : Bytes} {i : ℕ} (h : i < bytes.length) :
    charOf bytes i < (decodeReplace bytes).length := by
  have htake : bytes.take (i + 1) ≠ [] := by
    cases bytes with
    | nil => exact absurd h (Nat.not_lt_zero _)
    | cons b bytes => exact List.cons_ne_nil _ _
  have hle := Decoder.length_foldl (bytes.drop (i + 1)) (decoderOf (bytes.take (i + 1)))
  have hwhole : (bytes.drop (i + 1)).foldl Decoder.step (decoderOf (bytes.take (i + 1))) =
      decoderOf bytes := by
    unfold decoderOf
    rw [← List.foldl_append, List.take_append_drop]
  rw [hwhole] at hle
  refine Nat.lt_of_lt_of_le ?_ hle
  unfold charOf
  simp only
  have hne := text_ne_nil htake
  generalize decoderOf (bytes.take (i + 1)) = d at hne ⊢
  obtain ⟨text, begun⟩ := d
  cases begun with
  | none =>
    have hpos := List.length_pos_of_ne_nil (hne rfl)
    simp [Decoder.finish] at hpos ⊢
    omega
  | some u => simp [Decoder.finish]

theorem charOf_append_left {before : Bytes} (after : Bytes) {i : ℕ} (h : i < before.length) :
    charOf (before ++ after) i = charOf before i := by
  unfold charOf
  rw [List.take_append_of_le_length h]

theorem charOf_append_right {before after : Bytes} (h : inCharacter before after = false) {i : ℕ}
    (hi : i < after.length) :
    charOf (before ++ after) (before.length + i) =
      (decodeReplace before).length + charOf after i := by
  have htake : (before ++ after).take (before.length + i + 1) = before ++ after.take (i + 1) := by
    rw [Nat.add_assoc, List.take_length_add_append]
  have hne : after.take (i + 1) ≠ [] := by
    cases after with
    | nil => exact absurd hi (Nat.not_lt_zero _)
    | cons b after => exact List.cons_ne_nil _ _
  have hcut : inCharacter before (after.take (i + 1)) = false := by
    cases after with
    | nil => exact absurd hi (Nat.not_lt_zero _)
    | cons b after =>
      rw [List.take_succ_cons]
      unfold inCharacter at h ⊢
      cases hbegun : (decoderOf before).begun with
      | none => rfl
      | some u =>
        rw [hbegun] at h
        exact h
  have hfold : decoderOf (before ++ after.take (i + 1)) =
      (decoderOf (after.take (i + 1))).after (decodeReplace before) := by
    rw [← foldl_of_not_inCharacter hcut hne]
    unfold decoderOf
    rw [List.foldl_append]
  unfold charOf
  rw [htake, hfold]
  have htext := text_ne_nil hne
  generalize decoderOf (after.take (i + 1)) = d at htext ⊢
  obtain ⟨text, begun⟩ := d
  cases begun with
  | none =>
    have hpos := List.length_pos_of_ne_nil (htext rfl)
    simp [Decoder.after] at hpos ⊢
    omega
  | some u => simp [Decoder.after]

end Utf8
