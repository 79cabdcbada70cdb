import GoalFlight.Library.Lines
import GoalFlight.Library.Utf8Replace
import GoalFlight.Watch.Echo

/-!
# The watcher: the tail scanner

The watcher of a live worker polls the worker's log, and reads only what was appended to it.
What it keeps between two polls is in `TailScanner`: the bytes of the line that has not ended,
the fence and the last line of the worker's own, the last markers, and, until it is known which
lines are an echo of the prompt, the lines so far.  A line that has not ended is looked at
(`preview`), but not kept.
-/

namespace GoalFlight.Watch

open Utf8 (Bytes decodeReplace)

/-! ### Markers of completed lines -/

/-- A line, with its number and the offset at which it ends. -/
structure Record where
  lineNo : ℕ
  line : Line
  observedOffset : ℕ

/-- `last_candidate`: the last line that is the worker's own, and whether it is fenced. -/
structure Candidate where
  lineNo : ℕ
  line : Line
  inFence : Bool
  observedOffset : ℕ

/-- `_IncrementalMarkerState`. -/
structure MarkerState where
  fence : Fence
  allMarkers : List Marker
  outsideMarkers : List Marker
  lastCandidate : Option Candidate
  previousCandidate : Line

/-- The elements of a `deque(maxlen=20)`. -/
def recent (markers : List Marker) : List Marker := markers.drop (markers.length - 20)

/-- The markers of a scan, and whether each is fenced. -/
abbrev Found := List (Marker × Bool)

namespace MarkerState

variable (env : Lookups)

/-- `_IncrementalMarkerState.__init__`. -/
def start : MarkerState := ⟨Fence.closed, [], [], none, []⟩

/-- `_consume_candidate`. -/
def consumeCandidate (s : MarkerState) (r : Record) (inFence : Bool) : MarkerState :=
  let stripped := strip r.line
  if stripped = [] then s
  else
    let own :=
      if env.isTokenCount stripped then s.previousCandidate ≠ "tokens used".toList
      else stripped ≠ "tokens used".toList && !isHarnessTrailerLine stripped
    { s with
      lastCandidate :=
        if own then some ⟨r.lineNo, r.line, inFence, r.observedOffset⟩ else s.lastCandidate
      previousCandidate := stripped }

/-- The marker of a line that is no fence boundary. -/
def lineMarker (r : Record) : Option Marker :=
  let stripped := strip r.line
  match marker? stripped with
  | some (kind, payload) =>
    if isTemplateExample kind payload then completionSignoffMarker stripped r.lineNo
    else some ⟨r.lineNo, kind, payload.take 1000⟩
  | none => completionSignoffMarker stripped r.lineNo

/-- `consume`, of a line that is not ignored. -/
def consume (s : MarkerState) (r : Record) : MarkerState × Option (Marker × Bool) :=
  let (boundary, fence) := s.fence.consumeBoundary r.line
  let lineInFence := s.fence.inFence || fence.inFence
  let s := { s with fence := fence }.consumeCandidate env r lineInFence
  if boundary then (s, none)
  else
    match lineMarker r with
    | none => (s, none)
    | some marker =>
      ({ s with
          allMarkers := recent (s.allMarkers ++ [marker])
          outsideMarkers :=
            if lineInFence then s.outsideMarkers else recent (s.outsideMarkers ++ [marker]) },
        some (marker, lineInFence))

/-- `consume`, which leaves out a line that is ignored. -/
def accept (s : MarkerState × Found) (r : Record) (ignored : Bool) : MarkerState × Found :=
  if ignored then s
  else
    let (state, marker) := s.1.consume env r
    (state, s.2 ++ marker.toList)

/-- `visible_markers`. -/
def visibleMarkers (s : MarkerState) : List Marker :=
  if s.fence.inFence then
    s.allMarkers.filter fun marker =>
      s.outsideMarkers.contains marker || marker.survivesUnbalancedFence
  else s.outsideMarkers

/-- `terminal`. -/
def terminal (s : MarkerState) (kimiOutput : Bool) (expectedDispatchId : Line) : Option Marker :=
  match s.lastCandidate with
  | none => none
  | some c =>
    if c.inFence && !s.fence.inFence then none
    else
      let options : LineOptions :=
        { allowPrefixedMarker := true, kimiOutput, expectedDispatchId }
      (env.finalTerminalMarkerFromLine options c.line c.lineNo).filter fun marker =>
        !c.inFence || marker.survivesUnbalancedFence

end MarkerState

/-! ### The scanner -/

/-- The log, as one poll finds it. -/
structure TailFile where
  /-- The device and the inode. -/
  identity : ℕ × ℕ
  mtimeNs : ℕ
  content : Bytes

/-- Why a scan reads the log from its start. -/
inductive Resync
  | initial
  | missing
  | replacement
  | truncated
  | boundaryRewritten

/-- `IncrementalTailScanner`. -/
structure TailScanner where
  promptLines : List Line
  expectedDispatchId : Line
  identity : Option (ℕ × ℕ)
  mtimeNs : Option ℕ
  offset : ℕ
  boundary : Bytes
  /-- `_partial`: the bytes of the line that has not ended. -/
  unfinished : Bytes
  acceptedBytes : ℕ
  nextLineNo : ℕ
  promptStable : Bool
  promptRecords : List Record
  state : MarkerState

/-- `TailScanResult`. -/
structure TailScanResult where
  markers : List Marker
  mailMarkers : List Marker
  terminal : Option Marker
  size : ℕ
  contentBytes : ℕ
  validationBytes : ℕ
  linesMaterialized : ℕ
  resyncReason : Option Resync
  fenceUnbalanced : Bool
  terminalObservedSize : Option ℕ

/-- `TAIL_SCAN_CHUNK_BYTES`. -/
def tailScanChunkBytes : ℕ := 64 * 1024

/-- `TAIL_SCAN_BOUNDARY_BYTES`. -/
def tailScanBoundaryBytes : ℕ := 64

/-- A line ends at a line feed. -/
def newlineBreaks : Lines.Breaks UInt8 where
  isBreak b := b = 10
  joins _ _ := false
  joins_isBreak _ _ h := by cases h

/-- The text of a completed line. -/
def completedLine (raw : Bytes) : Line :=
  decodeReplace (if raw.getLast? = some 13 then raw.dropLast else raw)

/-- The content in chunks of this size. -/
def chunksOf (size : ℕ) : ℕ → Bytes → List Bytes
  | 0, _ => []
  | fuel + 1, content =>
    if content = [] then [] else content.take size :: chunksOf size fuel (content.drop size)

/-- The last bytes of what was read. -/
def boundaryOf (content : Bytes) : Bytes := content.drop (content.length - tailScanBoundaryBytes)

namespace TailScanner

variable (env : Lookups)

/-- `_prompt_has_anchors`. -/
def promptHasAnchors (promptLines : List Line) : Bool := promptEchoAnchorIndices promptLines ≠ []

/-- `_prompt_record_limit`. -/
def promptRecordLimit (promptLines : List Line) : ℕ :=
  promptEchoAnchorSearchLines + promptLines.length

/-- `_reset_content_state`. -/
def resetContentState (s : TailScanner) : TailScanner :=
  { s with
    offset := 0
    boundary := []
    unfinished := []
    acceptedBytes := 0
    nextLineNo := 1
    promptStable := !promptHasAnchors s.promptLines
    promptRecords := []
    state := .start }

/-- A new scanner. -/
def fresh (promptLines : List Line) (expectedDispatchId : Line) : TailScanner where
  promptLines
  expectedDispatchId
  identity := none
  mtimeNs := none
  offset := 0
  boundary := []
  unfinished := []
  acceptedBytes := 0
  nextLineNo := 1
  promptStable := !promptHasAnchors promptLines
  promptRecords := []
  state := .start

/-- `_parse_prompt_records`. -/
def parsePromptRecords (promptLines : List Line) (records : List Record) : MarkerState × Found :=
  let echo := isEcho promptLines (records.map Record.line)
  records.zipIdx.foldl (fun s r => MarkerState.accept env s r.1 (echo r.2)) (.start, [])

/-- `_accept_completed_line`. -/
def acceptCompletedLine (s : TailScanner × Found) (line : Line) (observedOffset : ℕ) :
    TailScanner × Found :=
  let (s, found) := s
  let r : Record := ⟨s.nextLineNo, line, observedOffset⟩
  let s := { s with nextLineNo := s.nextLineNo + 1 }
  if s.promptStable then
    let (state, found) := MarkerState.accept env (s.state, found) r false
    ({ s with state }, found)
  else
    let records := s.promptRecords ++ [r]
    if promptRecordLimit s.promptLines ≤ records.length then
      let (state, rebuilt) := parsePromptRecords env s.promptLines records
      ({ s with state, promptRecords := [], promptStable := true }, rebuilt)
    else ({ s with promptRecords := records }, found)

/-- The loop of `_feed_bytes`: each raw line, and the offset at which it starts. -/
def acceptLines (s : TailScanner × Found) (offset : ℕ) : List Bytes → TailScanner × Found
  | [] => s
  | raw :: more =>
    acceptLines (acceptCompletedLine env s (completedLine raw) (offset + raw.length + 1))
      (offset + raw.length + 1) more

/-- `_feed_bytes`. -/
def feedBytes (s : TailScanner × Found) (chunk : Bytes) : TailScanner × Found :=
  let bytes := s.1.unfinished ++ chunk
  let rest := newlineBreaks.unterminated bytes
  let (s, found) := acceptLines env s s.1.acceptedBytes (newlineBreaks.split bytes).ended
  ({ s with
      unfinished := rest
      acceptedBytes := s.acceptedBytes + (bytes.length - rest.length) }, found)

/-- `_preview`, with the number of lines that it makes. -/
def preview (s : TailScanner) (found : Found) : MarkerState × Found × ℕ :=
  let last : List Record :=
    if s.unfinished = [] then []
    else [⟨s.nextLineNo, decodeReplace s.unfinished, s.acceptedBytes + s.unfinished.length⟩]
  if s.promptStable then
    let (state, found) :=
      last.foldl (fun s r => MarkerState.accept env s r false) (s.state, found)
    (state, found, last.length)
  else
    let (state, found) := parsePromptRecords env s.promptLines (s.promptRecords ++ last)
    (state, found, last.length)

/-- `_result`. -/
def result (s : TailScanner) (state : MarkerState) (found : Found)
    (size contentBytes validationBytes linesMaterialized : ℕ) (resyncReason : Option Resync)
    (kimiOutput : Bool) : TailScanResult :=
  let visible := state.visibleMarkers
  let mailCandidates := (found.filter fun f =>
    !f.2 || (state.fence.inFence && f.1.survivesUnbalancedFence)).map Prod.fst
  let terminal := state.terminal env kimiOutput s.expectedDispatchId
  { markers := visible
    mailMarkers := (visible ++ mailCandidates).eraseDups
    terminal
    size
    contentBytes
    validationBytes
    linesMaterialized
    resyncReason
    fenceUnbalanced := state.fence.inFence
    terminalObservedSize :=
      if terminal.isSome then state.lastCandidate.map Candidate.observedOffset else none }

/-- Why this scan reads the log from its start, and the bytes that it read to find out. -/
def resync (s : TailScanner) (file : TailFile) : Option Resync × ℕ :=
  match s.identity with
  | none => (some .initial, 0)
  | some identity =>
    if file.identity ≠ identity then (some .replacement, 0)
    else if file.content.length < s.offset then (some .truncated, 0)
    else if s.offset ≠ 0 ∧ s.boundary ≠ [] ∧ some file.mtimeNs ≠ s.mtimeNs then
      let observed :=
        (file.content.drop (s.offset - s.boundary.length)).take s.boundary.length
      (if observed ≠ s.boundary then some .boundaryRewritten else none, observed.length)
    else (none, 0)

/-- One chunk of the loop that reads the log, with the lines so far. -/
def readChunk (s : (TailScanner × Found) × ℕ) (chunk : Bytes) : (TailScanner × Found) × ℕ :=
  let lines := (newlineBreaks.split (s.1.1.unfinished ++ chunk)).ended.length
  let (scanner, found) := feedBytes env s.1 chunk
  (({ scanner with boundary := boundaryOf (scanner.boundary ++ chunk) }, found), s.2 + lines)

/-- What a scan begins with: the identity of the log, and the content state of before or a new
one. -/
def begin (s : TailScanner) (reason : Option Resync) (file : TailFile) : TailScanner :=
  { (if reason.isSome then s.resetContentState else s) with identity := some file.identity }

/-- The bytes that a scan reads. -/
def appended (s : TailScanner) (file : TailFile) : Bytes := file.content.drop s.offset

/-- The chunks of the bytes that a scan reads are fed to the scanner. -/
def readAppended (s : TailScanner) (file : TailFile) : (TailScanner × Found) × ℕ :=
  (chunksOf tailScanChunkBytes (s.appended file).length (s.appended file)).foldl (readChunk env)
    ((s, []), 0)

/-- The scanner when the log has been read. -/
def finish (s : TailScanner) (file : TailFile) : TailScanner :=
  { s with
    offset := file.content.length
    mtimeNs := some file.mtimeNs
    state :=
      if s.promptStable then s.state
      else (parsePromptRecords env s.promptLines s.promptRecords).1 }

/-- `scan`, of a log that is missing. -/
def scanMissing (s : TailScanner) (kimiOutput : Bool) : TailScanResult × TailScanner :=
  let s' :=
    if s.identity.isSome then
      { s with identity := none, mtimeNs := none }.resetContentState
    else s
  let shown := s'.preview env []
  (s'.result env shown.1 shown.2.1 0 0 0 shown.2.2
    (if s.identity.isSome then some .missing else none) kimiOutput, s')

/-- `scan`. -/
def scan (s : TailScanner) (file : Option TailFile) (kimiOutput : Bool) :
    TailScanResult × TailScanner :=
  match file with
  | none => s.scanMissing env kimiOutput
  | some file =>
    let resync := s.resync file
    let begun := s.begin resync.1 file
    let read := begun.readAppended env file
    let s' := read.1.1.finish env file
    let shown := s'.preview env read.1.2
    (s'.result env shown.1 shown.2.1 s'.offset (begun.appended file).length resync.2
      (read.2 + shown.2.2) resync.1 kimiOutput, s')

end TailScanner

end GoalFlight.Watch
