import GoalFlight.Messages.Envelope

/-!
# The watcher: marker lines

A worker says how it is doing with marker lines in its output, such as `COMPLETE: id — summary`.
Here is how one line is read: which kind of marker it is, whether it is the sign-off or the
escalation of this dispatch, and which lines come from the agent's command line and not from the
worker.

The patterns of the source are written as functions of the line.  None of them has to go back:
after each optional or repeated part comes something that the part cannot match.
-/

namespace GoalFlight.Watch

open Messages (isSpace)

/-- A line, or a part of one. -/
abbrev Line := List Char

/-! ### Texts -/

/-- `text.lstrip()`. -/
def lstrip (text : Line) : Line := text.dropWhile isSpace

/-- `text.rstrip()`. -/
def rstrip (text : Line) : Line := (text.reverse.dropWhile isSpace).reverse

/-- `text.strip()`. -/
def strip (text : Line) : Line := rstrip (lstrip text)

/-- `text.startswith(lead)`. -/
def startsWith (lead : String) (text : Line) : Bool := lead.toList.isPrefixOf text

/-- What comes after a text that the line starts with. -/
def after? (lead text : Line) : Option Line :=
  if lead.isPrefixOf text then some (text.drop lead.length) else none

/-- A small letter of a pattern that ignores case matches the character. -/
def sameLetter (letter c : Char) : Bool :=
  c = letter || c = letter.toUpper || (letter = 's' && c.toNat = 0x17F) ||
    (letter = 'i' && (c.toNat = 0x130 || c.toNat = 0x131)) || (letter = 'k' && c.toNat = 0x212A)

/-- The same where case is ignored. -/
def afterAnyCase? : Line → Line → Option Line
  | [], text => some text
  | _ :: _, [] => none
  | letter :: lead, c :: text => if sameLetter letter c then afterAnyCase? lead text else none

/-- `\s+`: at least one blank. -/
def afterBlanks? : Line → Option Line
  | [] => none
  | c :: rest => if isSpace c then some (lstrip rest) else none

/-- An optional character. -/
def dropOne (c : Char) : Line → Line
  | [] => []
  | d :: rest => if d = c then rest else d :: rest

/-- `\**!?\**`. -/
def dropSigil (text : Line) : Line :=
  (dropOne '!' (text.dropWhile (· = '*'))).dropWhile (· = '*')

/-- What the environment knows: the decimal digits above ASCII, and the run ledger's records. -/
structure Lookups where
  wideDecimal : Char → Bool
  hasRecord : Line → Bool

/-- `\d`. -/
def Lookups.isDecimal (env : Lookups) (c : Char) : Bool :=
  c.isDigit || (127 < c.toNat && env.wideDecimal c)

/-! ### Kinds -/

/-- `_MARKER_KIND_ORDER`. -/
inductive Kind
  | status
  | steerAck
  | steerReply
  | result
  | userNeed
  | userConfirm
  | blocked
  | failed
  | complete
  | ready
deriving DecidableEq

namespace Kind

/-- The word of a kind. -/
def word : Kind → String
  | status => "STATUS"
  | steerAck => "STEER-ACK"
  | steerReply => "STEER-REPLY"
  | result => "RESULT"
  | userNeed => "USER-NEED"
  | userConfirm => "USER-CONFIRM"
  | blocked => "BLOCKED"
  | failed => "FAILED"
  | complete => "COMPLETE"
  | ready => "READY"

/-- `SUCCESS_TERMINAL_MARKERS`. -/
def isSuccess : Kind → Bool
  | complete | ready | result => true
  | _ => false

/-- `ATTENTION_MARKERS`. -/
def isAttention : Kind → Bool
  | blocked | userNeed | userConfirm | failed => true
  | _ => false

/-- `TEMPLATE_GUARDED_MARKERS`. -/
def isTemplateGuarded : Kind → Bool
  | blocked | userNeed | userConfirm => true
  | _ => false

end Kind

/-- `_MARKER_KIND_ALTERNATION`. -/
def markerKinds : List Kind :=
  [.status, .steerAck, .steerReply, .result, .userNeed, .userConfirm, .blocked, .failed, .complete,
    .ready]

/-- `_TERMINAL_MARKER_KIND_ALTERNATION`. -/
def terminalMarkerKinds : List Kind :=
  markerKinds.filter fun kind => kind.isSuccess || kind.isAttention

/-- `_ATTENTION_KIND_ALTERNATION`. -/
def attentionKinds : List Kind := [.blocked, .failed, .userConfirm, .userNeed]

/-- One of these kinds and a colon. -/
def kindOf? (kinds : List Kind) (text : Line) : Option (Kind × Line) :=
  kinds.findSome? fun kind => (after? (kind.word.toList ++ [':']) text).map fun rest => (kind, rest)

/-- A marker that was read. -/
structure Marker where
  line : ℕ
  kind : Kind
  text : Line
deriving DecidableEq

/-! ### Patterns -/

/-- `MARKER_RE`. -/
def marker? (text : Line) : Option (Kind × Line) :=
  (kindOf? markerKinds (dropSigil text)).map fun m => (m.1, lstrip (m.2.dropWhile (· = '*')))

/-- `STATUS:\s*`, if it is there. -/
def dropStatus (text : Line) : Line :=
  match after? "STATUS:".toList text with
  | some rest => lstrip rest
  | none => text

/-- `_OWN_SIGNAL_ATTENTION_RE`, and the end of `FINAL_TERMINAL_MARKER_RE`. -/
def decorated? (kinds : List Kind) (text : Line) : Option (Kind × Line) :=
  kindOf? kinds (dropStatus (dropSigil (dropOne '`' text)))

/-- `FINAL_TERMINAL_MARKER_RE`. -/
def finalTerminalMarker? (text : Line) : Option (Kind × Line) :=
  let item := match text with
    | '-' :: rest => (afterBlanks? rest).getD text
    | _ => text
  decorated? terminalMarkerKinds item

/-- `MARKER_VOCAB_BULLET_RE`. -/
def isMarkerVocabBullet (text : Line) : Bool :=
  match text with
  | '-' :: rest =>
    match afterBlanks? rest with
    | some ('`' :: quoted) =>
      match kindOf? markerKinds (dropOne '!' quoted) with
      | some (_, '`' :: blanks) => blanks.all isSpace
      | _ => false
    | _ => false
  | _ => false

/-- `(DONE|COMPLETE|FINISHED)\s*:?\s*[.!?]?$`, ignoring case. -/
def isBareSignoff (text : Line) : Bool :=
  ["done", "complete", "finished"].any fun word =>
    match afterAnyCase? word.toList text with
    | none => false
    | some rest =>
      match lstrip (dropOne ':' (lstrip rest)) with
      | [] => true
      | [c] => c = '.' || c = '!' || c = '?'
      | _ => false

/-- `COMPLETION_SIGNOFF_RE`. -/
def isCompletionSignoff (text : Line) : Bool :=
  match afterAnyCase? "status:".toList text with
  | some rest => isBareSignoff (lstrip rest)
  | none => isBareSignoff text

/-- `BARE_TERMINAL_MARKER_RE`. -/
def isBareTerminalMarker (text : Line) : Bool :=
  (terminalMarkerKinds.any fun kind =>
    (afterAnyCase? (kind.word.toList.map Char.toLower ++ [':']) (dropOne '!' text)).isSome) ||
  isBareSignoff text

/-- `HARNESS_TOKEN_COUNT_RE`. -/
def Lookups.isTokenCount (env : Lookups) (text : Line) : Bool :=
  (text ≠ [] && text.all env.isDecimal) ||
  match text.splitOn ',' with
  | [] => false
  | first :: more =>
    first ≠ [] && first.length ≤ 3 && first.all env.isDecimal &&
      more.all fun group => group.length = 3 && group.all env.isDecimal

/-- `HARNESS_RESUME_FOOTER_RE`. -/
def isResumeFooter (text : Line) : Bool :=
  let verb := ((afterAnyCase? "to".toList text).bind afterBlanks?).getD text
  ["resume", "continue"].any fun word =>
    match (afterAnyCase? word.toList verb).bind afterBlanks? with
    | none => false
    | some object =>
      let noun := ((afterAnyCase? "this".toList object).bind afterBlanks?).getD object
      match afterAnyCase? "session".toList noun with
      | none => false
      | some rest => (lstrip rest).head? = some ':'

/-- `_is_harness_trailer_line`. -/
def isHarnessTrailerLine (stripped : Line) : Bool :=
  stripped = "hook: Stop".toList || stripped = "hook: Stop Completed".toList ||
    isResumeFooter stripped

/-! ### Payloads -/

/-- `_strip_marker_decoration`: blanks, stars and backticks at both ends. -/
def stripMarkerDecoration (text : Line) : Line :=
  let decorates := fun c => isSpace c || c = '*' || c = '`'
  ((text.dropWhile decorates).reverse.dropWhile decorates).reverse

/-- `<[^<>\r\n]+>` at the start, behind the first bracket. -/
def placeholderEnds (text : Line) : Bool :=
  let inner := fun c => c ≠ '<' && c ≠ '>' && c ≠ '\r' && c ≠ '\n'
  text.takeWhile inner ≠ [] && (text.dropWhile inner).head? = some '>'

/-- `marker_payload_has_template_placeholder`. -/
def hasTemplatePlaceholder : Line → Bool
  | [] => false
  | c :: rest => (c = '<' && placeholderEnds rest) || hasTemplatePlaceholder rest

/-- `marker_is_template_example`. -/
def isTemplateExample (kind : Kind) (payload : Line) : Bool :=
  kind.isTemplateGuarded && hasTemplatePlaceholder payload

/-- `_completion_signoff_marker`. -/
def completionSignoffMarker (stripped : Line) (lineNo : ℕ) : Option Marker :=
  if isCompletionSignoff (stripMarkerDecoration stripped) then some ⟨lineNo, .complete, []⟩
  else none

/-- `parse_own_signal_attention_line`. -/
def parseOwnSignalAttentionLine (rawLine : Line) (lineNo : ℕ) (kimiOutput : Bool) :
    Option Marker :=
  let continuation := kimiOutput && startsWith "  " rawLine && !startsWith "   " rawLine
  if startsWith "\t" rawLine || (startsWith " " rawLine && !continuation) then none
  else
    let stripped := strip rawLine
    let own := if kimiOutput && startsWith "• " stripped then lstrip (stripped.drop 2) else stripped
    match decorated? attentionKinds own with
    | none => none
    | some (kind, payload) =>
      if isTemplateExample kind payload then none
      else some ⟨lineNo, kind, (stripMarkerDecoration payload).take 1000⟩

/-! ### Whose marker it is -/

/-- A character that ends the dispatch id of a payload. -/
def endsIdentity (c : Char) : Bool :=
  isSpace c || c = ':' || c = ';' || c = '|' || c = '—' || c = '–'

/-- `_payload_binds_to_dispatch`. -/
def payloadBindsToDispatch (marker : Marker) (expected : Line) (requireTerminated : Bool) : Bool :=
  let text := stripMarkerDecoration marker.text
  if text = expected then !requireTerminated
  else expected.isPrefixOf text && (text.drop expected.length).head?.any endsIdentity

/-- `_token_looks_like_dispatch_id`. -/
def looksLikeDispatchId (token : Line) : Bool :=
  token.contains '-' && token.length ≤ 255 && token.head?.any Char.isAlphanum &&
    token.all fun c => c.isAlphanum || ['.', '_', ':', '@', '+', '-'].contains c

/-- `_attention_payload_names_foreign_dispatch`. -/
def Lookups.namesForeignDispatch (env : Lookups) (text expected : Line) : Bool :=
  let token := text.takeWhile fun c => !endsIdentity c
  let remainder := text.dropWhile fun c => !endsIdentity c
  if token = [] || token = expected || !looksLikeDispatchId token then false
  else
    match remainder.dropWhile fun c => c = ' ' || c = '\t' with
    | c :: _ => (c = '—' || c = '–') && env.hasRecord token
    | [] => false

/-- `_terminal_marker_matches_dispatch`, of a marker that has no `dispatch_id` of its own; no
expected dispatch is an empty text. -/
def Lookups.matchesDispatch (env : Lookups) (marker : Marker) (expectedDispatchId : Line)
    (requireTerminated : Bool) : Bool :=
  let expected := strip expectedDispatchId
  expected = [] || payloadBindsToDispatch marker expected requireTerminated ||
    (marker.kind.isAttention &&
      !env.namesForeignDispatch (stripMarkerDecoration marker.text) expected)

/-! ### Terminal lines -/

/-- `_is_diff_context_line`. -/
def isDiffContextLine (rawLine : Line) : Bool :=
  startsWith " " rawLine || startsWith "\t" rawLine || startsWith "+" rawLine ||
    (startsWith "-" rawLine && !startsWith "- " rawLine)

/-- `_strip_terminal_marker_prefix`. -/
def stripTerminalMarkerLead : Line → Line
  | '+' :: rest => dropOne ' ' rest
  | '-' :: rest => dropOne ' ' rest
  | stripped => stripped

/-- `_strip_kimi_terminal_marker_prefix`. -/
def stripKimiBullet (stripped : Line) : Line :=
  if startsWith "• " stripped then lstrip (stripped.drop 2) else stripped

/-- The keyword arguments of `_final_terminal_marker_from_line`. -/
structure LineOptions where
  allowPrefixedMarker : Bool := false
  allowQuotePrefix : Bool := false
  allowStatusPrefix : Bool := false
  kimiOutput : Bool := false
  expectedDispatchId : Line := []

/-- What is left of a line for the patterns. -/
def LineOptions.undecorated (o : LineOptions) (stripped : Line) : Line :=
  if o.allowPrefixedMarker then
    let unquoted :=
      if o.allowQuotePrefix && startsWith "> " stripped then lstrip (stripped.drop 2)
      else stripTerminalMarkerLead stripped
    if o.kimiOutput then stripKimiBullet unquoted else unquoted
  else stripped

/-- The marker of a line, whatever dispatch it is of. -/
def LineOptions.read (o : LineOptions) (rawLine : Line) (lineNo : ℕ) : Option Marker :=
  let continuation := startsWith "  " rawLine && !startsWith "   " rawLine
  if startsWith "\t" rawLine ||
      (startsWith " " rawLine && !(o.allowPrefixedMarker && o.kimiOutput && continuation)) then none
  else if isDiffContextLine rawLine && !o.allowPrefixedMarker then none
  else
    let stripped := strip rawLine
    if stripped = [] then none
    else if o.allowPrefixedMarker && isMarkerVocabBullet stripped then none
    else
      let text := o.undecorated stripped
      if text = [] then none
      else if !o.allowStatusPrefix && (marker? text).any fun m => m.1 = .status then
        parseOwnSignalAttentionLine rawLine lineNo o.kimiOutput
      else
        match completionSignoffMarker text lineNo with
        | some signoff => some signoff
        | none =>
          match finalTerminalMarker? text with
          | none => none
          | some (kind, payload) =>
            if isTemplateExample kind payload then none
            else if kind.isAttention then
              parseOwnSignalAttentionLine rawLine lineNo o.kimiOutput
            else some ⟨lineNo, kind, (stripMarkerDecoration payload).take 1000⟩

/-- `_final_terminal_marker_from_line`. -/
def Lookups.finalTerminalMarkerFromLine (env : Lookups) (o : LineOptions) (rawLine : Line)
    (lineNo : ℕ) : Option Marker :=
  (o.read rawLine lineNo).filter fun marker => env.matchesDispatch marker o.expectedDispatchId false

/-- `_marker_survives_unbalanced_fence`. -/
def Marker.survivesUnbalancedFence (marker : Marker) : Bool := marker.kind.isSuccess

end GoalFlight.Watch
