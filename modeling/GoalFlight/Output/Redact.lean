import Mathlib.Data.List.TakeWhile
import GoalFlight.Library.Substitution
import GoalFlight.Library.Utf8Replace
import GoalFlight.Watch.Markers

/-!
# Output: redaction of a stream

What a worker writes goes to its tail with everything that has the shape of a credential taken
out.  Whole lines are redacted as they end; a line that does not end is written in parts, when it
is long or has been waiting, and the end of a part is held back where it may be the start of a
credential.
-/

namespace GoalFlight.Output

open Utf8 (Bytes decodeReplace)
open Watch (sameLetter)

/-! ### The shape of a credential -/

/-- `[a-z0-9]`, ignoring case; of the characters above ASCII these four are letters of the range in
another case. -/
def isKeyChar (c : Char) : Bool :=
  c.isAlphanum || [0x130, 0x131, 0x17F, 0x212A].contains c.toNat

/-- The length of `_SECRET_SHAPE_RE` at the start of a text. -/
def keyLength : List Char → ℕ
  | x :: a :: i :: hyphen :: rest =>
    if sameLetter 'x' x && sameLetter 'a' a && sameLetter 'i' i && hyphen = '-' then
      let run := (rest.takeWhile isKeyChar).length
      if 20 ≤ run then 4 + run else 0
    else 0
  | _ => 0

/-- The four characters at the start of a credential. -/
def isKeyStart : List Char → Bool
  | [x, a, i, hyphen] => sameLetter 'x' x && sameLetter 'a' a && sameLetter 'i' i && hyphen = '-'
  | _ => false

theorem keyLength_append_four {start : List Char} (hlength : start.length = 4) (rest : List Char) :
    keyLength (start ++ rest) =
      if isKeyStart start then
        if 20 ≤ (rest.takeWhile isKeyChar).length then 4 + (rest.takeWhile isKeyChar).length else 0
      else 0 := by
  match start, hlength with
  | [x, a, i, hyphen], _ => rfl

theorem keyLength_of_short {text : List Char} (h : text.length < 4) : keyLength text = 0 := by
  match text, h with
  | [], _ => rfl
  | [_], _ => rfl
  | [_, _], _ => rfl
  | [_, _, _], _ => rfl

theorem short_or_four (text : List Char) :
    text.length < 4 ∨ ∃ start rest, start.length = 4 ∧ text = start ++ rest := by
  by_cases h : text.length < 4
  · exact .inl h
  · refine .inr ⟨text.take 4, text.drop 4, ?_, (List.take_append_drop 4 text).symm⟩
    rw [List.length_take]
    omega

/-- **A credential** at the start of a text. -/
theorem keyLength_pos {text : List Char} (h : 0 < keyLength text) :
    ∃ start run rest, text = start ++ run ++ rest ∧ start.length = 4 ∧ isKeyStart start = true ∧
      (∀ c ∈ run, isKeyChar c = true) ∧ (∀ c ∈ rest.head?, isKeyChar c = false) ∧
      20 ≤ run.length ∧ keyLength text = 4 + run.length := by
  rcases short_or_four text with hshort | ⟨start, rest, hfour, rfl⟩
  · rw [keyLength_of_short hshort] at h
    exact absurd h (Nat.lt_irrefl _)
  · rw [keyLength_append_four hfour] at h ⊢
    split at h
    · rename_i hstart
      rw [if_pos hstart]
      split at h
      · rename_i hrun
        rw [if_pos hrun]
        refine ⟨start, rest.takeWhile isKeyChar, rest.dropWhile isKeyChar, ?_, hfour, hstart, ?_, ?_,
          hrun, rfl⟩
        · rw [List.append_assoc, List.takeWhile_append_dropWhile]
        · exact fun c hc => List.mem_takeWhile_imp hc
        · intro c hc
          have hnot := List.head?_dropWhile_not isKeyChar rest
          rw [Option.mem_def.mp hc] at hnot
          simpa using hnot
      · exact absurd h (Nat.lt_irrefl _)
    · exact absurd h (Nat.lt_irrefl _)

theorem keyLength_le (text : List Char) : keyLength text ≤ text.length := by
  by_cases h : 0 < keyLength text
  · obtain ⟨start, run, rest, rfl, hfour, -, -, -, -, hlength⟩ := keyLength_pos h
    rw [hlength, List.length_append, List.length_append]
    omega
  · omega

theorem le_keyLength (text : List Char) : keyLength text = 0 ∨ 24 ≤ keyLength text := by
  by_cases h : 0 < keyLength text
  · obtain ⟨start, run, rest, -, -, -, -, -, hrun, hlength⟩ := keyLength_pos h
    omega
  · omega

/-- **`_SECRET_SHAPE_RE`.** -/
def secretShape : Substitution.Pattern Char where
  matchLength := keyLength
  mono := by
    intro text more
    rcases short_or_four text with hshort | ⟨start, rest, hfour, rfl⟩
    · rw [keyLength_of_short hshort]
      exact Nat.zero_le _
    · rw [List.append_assoc, keyLength_append_four hfour, keyLength_append_four hfour]
      have hmore : (rest.takeWhile isKeyChar).length ≤
          ((rest ++ more).takeWhile isKeyChar).length := by
        rw [List.takeWhile_append]
        split
        · rename_i hall
          rw [List.length_append]
          omega
        · exact Nat.le_refl _
      split <;> [skip; exact Nat.le_refl _]
      split <;> split <;> omega
  stable := by
    intro text more h
    rcases short_or_four text with hshort | ⟨start, rest, hfour, rfl⟩
    · rw [keyLength_of_short hshort]
      rcases le_keyLength (text ++ more) with hzero | hlong
      · exact hzero.symm
      · omega
    · rw [List.append_assoc, keyLength_append_four hfour] at h
      rw [List.append_assoc, keyLength_append_four hfour, keyLength_append_four hfour]
      rw [List.length_append, hfour] at h
      rw [List.takeWhile_append] at h ⊢
      have hle := (List.takeWhile_prefix isKeyChar (l := rest)).length_le
      split
      · rename_i hstart
        rw [if_pos hstart] at h
        split at h
        · rename_i hall
          rw [if_pos hall]
          rw [List.length_append] at h ⊢
          split at h
          · rename_i hrun
            rw [if_pos hrun, if_pos (by omega), hall]
            omega
          · rename_i hrun
            rw [if_neg hrun, if_neg (by omega)]
        · rename_i hall
          rw [if_neg hall]
      · rfl
  le := keyLength_le

/-- `REDACTED`. -/
def redacted : List Char := "[redacted]".toList

/-- `redact_text`. -/
def redactText (text : List Char) : List Char := secretShape.sub redacted text

/-! ### Bytes -/

/-- `_SECRET_PREFIX_RE`, of all of the bytes. -/
def isSecretStart (bytes : Bytes) : Bool :=
  match bytes.map fun b => (Char.ofNat b.toNat).toLower with
  | ['x'] | ['x', 'a'] | ['x', 'a', 'i'] => true
  | 'x' :: 'a' :: 'i' :: '-' :: rest => rest.length ≤ 19 && rest.all Char.isAlphanum
  | _ => false

/-- `_SECRET_PREFIX_MAX`. -/
def secretStartMax : ℕ := 4 + 19

/-- The loop of `secret_holdback_len`. -/
def holdbackFrom (buf : Bytes) : ℕ → ℕ
  | 0 => 0
  | n + 1 => if isSecretStart (buf.drop (buf.length - (n + 1))) then n + 1 else holdbackFrom buf n

/-- `secret_holdback_len`. -/
def secretHoldbackLen (buf : Bytes) : ℕ := holdbackFrom buf (min buf.length secretStartMax)

/-- `_redact_line_bytes`. -/
def redactLineBytes (line : Bytes) : Bytes := Utf8.encode (redactText (decodeReplace line))

/-- `split_partial_flush`: what goes out before it is redacted, and what is kept. -/
def splitPartialFlush (buf : Bytes) : Bytes × Bytes :=
  let hold := secretHoldbackLen buf
  if buf.length ≤ hold then ([], buf)
  else (buf.take (buf.length - hold), buf.drop (buf.length - hold))

/-! ### The stream -/

/-- What goes out: a line that has ended, or a part of one. -/
inductive Emission
  | line (raw : Bytes)
  | part (raw : Bytes)

/-- The bytes that are written for it. -/
def Emission.output : Emission → Bytes
  | .line raw => redactLineBytes raw ++ [10]
  | .part raw => redactLineBytes raw

/-- What can happen before the end of the source: bytes arrive, or the wait for more is over. -/
inductive Event
  | chunk (bytes : Bytes)
  | timeout

/-- The loop over the line ends of the buffer. -/
def emitLines (buf : Bytes) : Bytes → List Emission × Bytes
  | [] => ([], buf)
  | b :: rest =>
    if b = 10 then
      let (emissions, buf') := emitLines [] rest
      (.line buf :: emissions, buf')
    else emitLines (buf ++ [b]) rest

/-- `flush_partial`. -/
def flushPartial (buf : Bytes) : List Emission × Bytes :=
  let (out, keep) := splitPartialFlush buf
  (if out = [] then [] else [.part out], keep)

/-- One round of `filter_stream`. -/
def handle (flushBytes : ℤ) (buf : Bytes) : Event → List Emission × Bytes
  | .timeout => flushPartial buf
  | .chunk bytes =>
    let (emissions, buf) := emitLines buf bytes
    if 0 < flushBytes ∧ flushBytes ≤ buf.length then
      let (flushed, keep) := flushPartial buf
      (emissions ++ flushed, keep)
    else (emissions, buf)

/-- `filter_stream`, from a buffer on: what goes out. -/
def emissionsFrom (flushBytes : ℤ) (buf : Bytes) : List Event → List Emission
  | [] => if buf = [] then [] else [.part buf]
  | event :: events =>
    let (emissions, buf) := handle flushBytes buf event
    emissions ++ emissionsFrom flushBytes buf events

/-- What goes out for a stream. -/
def emissions (flushBytes : ℤ) (events : List Event) : List Emission :=
  emissionsFrom flushBytes [] events

/-- **`filter_stream`**: what is written. -/
def filterStream (flushBytes : ℤ) (events : List Event) : Bytes :=
  (emissions flushBytes events).flatMap Emission.output

/-- The bytes of the source. -/
def streamOf (events : List Event) : Bytes :=
  events.flatMap fun
    | .chunk bytes => bytes
    | .timeout => []

/-! ### Line by line -/

/-- A stream with each line redacted in one piece, from an open line on. -/
def redactLinesFrom (open_ : Bytes) : Bytes → Bytes
  | [] => if open_ = [] then [] else redactLineBytes open_
  | b :: rest =>
    if b = 10 then redactLineBytes open_ ++ [10] ++ redactLinesFrom [] rest
    else redactLinesFrom (open_ ++ [b]) rest

/-- **The line-by-line redaction** of a stream. -/
def redactLines (stream : Bytes) : Bytes := redactLinesFrom [] stream

end GoalFlight.Output
