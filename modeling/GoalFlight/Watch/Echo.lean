import GoalFlight.Watch.Markers

/-!
# The watcher: fences and the echoed prompt

Markers in a fenced block of Markdown are quotations, and the prompt that an agent echoes at the
start of its output is not the worker's.  Where a line near the start of the output is an *anchor*,
a line of the prompt that starts a paragraph and does not look like a marker, the lines from there
on that go on as the prompt does are the echo.

Whether a line is taken for an echo depends on the lines up to it only (`isEcho_append`), and only
the first lines of the output can be (`isEcho_lt`).
-/

namespace GoalFlight.Watch

open Messages (isSpace)

/-! ### Fences -/

/-- `MarkdownFenceTracker`. -/
structure Fence where
  delimiter : Option Char
  minimumLength : ℕ

namespace Fence

/-- No block is open. -/
def closed : Fence := ⟨none, 0⟩

/-- `in_fence`. -/
def inFence (fence : Fence) : Bool := fence.delimiter.isSome

/-- `FENCE_RUN_RE`: the character of the run, its length, and the rest. -/
def run? (rawLine : Line) : Option (Char × ℕ × Line) :=
  match rawLine.dropWhile fun c => c = ' ' || c = '\t' with
  | [] => none
  | c :: rest =>
    let length := (rest.takeWhile (· = c)).length + 1
    if (c = '`' || c = '~') && 3 ≤ length then some (c, length, rest.dropWhile (· = c))
    else none

/-- `consume_boundary`: whether the line is a boundary, and the fence after it. -/
def consumeBoundary (fence : Fence) (rawLine : Line) : Bool × Fence :=
  match run? rawLine with
  | none => (false, fence)
  | some (c, length, rest) =>
    if fence.inFence = false then (true, ⟨some c, length⟩)
    else if fence.delimiter = some c && fence.minimumLength ≤ length && rest.all isSpace then
      (true, closed)
    else (false, fence)

end Fence

/-! ### The echoed prompt -/

/-- `PROMPT_ECHO_ANCHOR_SEARCH_LINES`. -/
def promptEchoAnchorSearchLines : ℕ := 200

/-- `PROMPT_ECHO_MAX_ANCHORS`. -/
def promptEchoMaxAnchors : ℕ := 10

/-- The loop of `_prompt_echo_anchor_indices`. -/
def anchorIndices (index : ℕ) (seen : List Line) (atSegmentStart : Bool) : List Line → List ℕ
  | [] => []
  | line :: rest =>
    if line = [] then anchorIndices (index + 1) seen true rest
    else if atSegmentStart && !seen.contains line && !isBareTerminalMarker line then
      if promptEchoMaxAnchors ≤ seen.length + 1 then [index]
      else index :: anchorIndices (index + 1) (line :: seen) false rest
    else anchorIndices (index + 1) seen false rest

/-- `_prompt_echo_anchor_indices`. -/
def promptEchoAnchorIndices (promptLines : List Line) : List ℕ := anchorIndices 0 [] true promptLines

/-- The number of lines that go on as the prompt does. -/
def spanLength : List Line → List Line → ℕ
  | line :: lines, promptLine :: promptLines =>
    if strip line = promptLine then spanLength lines promptLines + 1 else 0
  | _, _ => 0

/-- The spans of `_prompt_echo_scan`: where each starts, and its length. -/
def echoSpans (promptLines lines : List Line) : List (ℕ × ℕ) :=
  (List.range (min lines.length promptEchoAnchorSearchLines)).flatMap fun start =>
    (promptEchoAnchorIndices promptLines).map fun anchor =>
      (start, spanLength (lines.drop start) (promptLines.drop anchor))

/-- `prompt_echo_lines` of `_prompt_echo_scan`. -/
def isEcho (promptLines lines : List Line) (index : ℕ) : Bool :=
  (echoSpans promptLines lines).any fun span => span.1 ≤ index && index < span.1 + span.2

/-! ### What an echo depends on -/

variable {promptLines lines : List Line}

theorem isEcho_iff {index : ℕ} :
    isEcho promptLines lines index = true ↔
      ∃ start anchor, start < lines.length ∧ start < promptEchoAnchorSearchLines ∧
        anchor ∈ promptEchoAnchorIndices promptLines ∧ start ≤ index ∧
        index < start + spanLength (lines.drop start) (promptLines.drop anchor) := by
  unfold isEcho echoSpans
  simp only [List.any_eq_true, List.mem_flatMap, List.mem_range, List.mem_map, Bool.and_eq_true,
    decide_eq_true_eq]
  constructor
  · rintro ⟨span, ⟨start, hstart, anchor, hanchor, rfl⟩, hle, hlt⟩
    exact ⟨start, anchor, by omega, by omega, hanchor, hle, hlt⟩
  · rintro ⟨start, anchor, hlength, hlimit, hanchor, hle, hlt⟩
    exact ⟨_, ⟨start, by omega, anchor, hanchor, rfl⟩, hle, hlt⟩

theorem spanLength_le (lines promptLines : List Line) :
    spanLength lines promptLines ≤ promptLines.length := by
  induction lines generalizing promptLines with
  | nil => simp [spanLength]
  | cons line lines ih =>
    cases promptLines with
    | nil => simp [spanLength]
    | cons promptLine promptLines =>
      unfold spanLength
      split
      · exact Nat.succ_le_succ (ih promptLines)
      · exact Nat.zero_le _

theorem lt_spanLength_append {n : ℕ} (more : List Line) (hn : n < lines.length) :
    n < spanLength (lines ++ more) promptLines ↔ n < spanLength lines promptLines := by
  induction lines generalizing promptLines n with
  | nil => exact absurd hn (Nat.not_lt_zero n)
  | cons line lines ih =>
    cases promptLines with
    | nil => simp [spanLength]
    | cons promptLine promptLines =>
      rw [List.cons_append]
      unfold spanLength
      split
      · cases n with
        | zero => simp
        | succ n => simpa using ih (Nat.lt_of_succ_lt_succ hn)
      · exact Iff.rfl

/-- **Whether a line is an echo** depends on the lines up to it. -/
theorem isEcho_append {index : ℕ} (more : List Line) (hindex : index < lines.length) :
    isEcho promptLines (lines ++ more) index = isEcho promptLines lines index := by
  rw [Bool.eq_iff_iff, isEcho_iff, isEcho_iff]
  have hspan : ∀ start anchor, start ≤ index →
      (index < start + spanLength ((lines ++ more).drop start) (promptLines.drop anchor) ↔
        index < start + spanLength (lines.drop start) (promptLines.drop anchor)) := by
    intro start anchor hle
    have hdrop : index - start < (lines.drop start).length := by
      rw [List.length_drop]
      omega
    have := @lt_spanLength_append (promptLines.drop anchor) (lines.drop start) (index - start) more hdrop
    rw [List.drop_append_of_le_length (by omega)]
    omega
  constructor
  · rintro ⟨start, anchor, -, hlimit, hanchor, hle, hlt⟩
    exact ⟨start, anchor, by omega, hlimit, hanchor, hle, (hspan start anchor hle).mp hlt⟩
  · rintro ⟨start, anchor, -, hlimit, hanchor, hle, hlt⟩
    refine ⟨start, anchor, ?_, hlimit, hanchor, hle, (hspan start anchor hle).mpr hlt⟩
    rw [List.length_append]
    omega

theorem isEcho_lt {index : ℕ} (h : isEcho promptLines lines index = true) :
    index < promptEchoAnchorSearchLines + promptLines.length := by
  obtain ⟨start, anchor, -, hlimit, -, -, hlt⟩ := isEcho_iff.mp h
  have hspan := spanLength_le (lines.drop start) (promptLines.drop anchor)
  rw [List.length_drop] at hspan
  omega

theorem isEcho_of_no_anchors (h : promptEchoAnchorIndices promptLines = []) (index : ℕ) :
    isEcho promptLines lines index = false := by
  rw [Bool.eq_false_iff]
  intro hecho
  obtain ⟨start, anchor, -, -, hanchor, -⟩ := isEcho_iff.mp hecho
  rw [h] at hanchor
  cases hanchor

end GoalFlight.Watch
