import GoalFlight.Library.Json
import GoalFlight.Library.Utf8

/-!
# Envelopes as JSON

What `validate_envelope` accepts: the fields of an envelope, the bounds of its JSON tree
and the size of its text.  A refusal carries the path below the envelope and the text of
the message; the caller's own path goes in front.

Canonicalizing a project root asks the file system and is a parameter.
-/

namespace GoalFlight.Messages

open Json

/-! ### Refusals -/

/-- The message of a `MessageError`: where in the value, if anywhere, and what. -/
structure Fault where
  field : Option String
  text : String

/-- The text, with the caller's path. -/
def Fault.render (f : Fault) (path : String) : String :=
  match f.field with
  | some field => path ++ field ++ ": " ++ f.text
  | none => f.text

/-- How a validation ends: with a message, or with the `TypeError` of an unhashable value. -/
inductive Refusal
  | message (fault : Fault)
  | typeError

/-- `raise MessageError(f"{path}…")`. -/
def refuse {α : Type} (field text : String) : Except Refusal α :=
  .error (.message ⟨some field, text⟩)

/-! ### Texts -/

/-- `str.isspace` of one character. -/
def isSpace (c : Char) : Bool :=
  let n := c.toNat
  (9 ≤ n && n ≤ 13) || (28 ≤ n && n ≤ 32) || n = 0x85 || n = 0xA0 || n = 0x1680 ||
    (0x2000 ≤ n && n ≤ 0x200A) || n = 0x2028 || n = 0x2029 || n = 0x202F || n = 0x205F ||
    n = 0x3000

/-- `_bounded_nonblank_string`. -/
def boundedNonblankString (value : Value) (field : String) (limit : ℕ) : Except Refusal String :=
  match value with
  | .str s =>
    if s.toList.all isSpace || s.length > limit then
      refuse field ("expected 1.." ++ toString limit ++ " non-blank characters")
    else .ok s
  | _ => refuse field ("expected 1.." ++ toString limit ++ " non-blank characters")

/-- `STREAM_TOKEN_RE`. -/
def isStreamToken (s : String) : Bool :=
  let chars := s.toList
  chars ≠ [] && chars.length ≤ 255 &&
    chars.all (fun c => c.isAlphanum || c ∈ ['.', '_', ':', '@', '+', '-']) &&
    chars.head?.any Char.isAlphanum && chars.getLast?.any Char.isAlphanum

/-- `MESSAGE_TYPE_RE`. -/
def isMessageType (s : String) : Bool :=
  let chars := s.toList
  chars.length ≤ 64 && chars.all (fun c => c.isAlphanum || c = '_' || c = '-') &&
    chars.head?.any Char.isAlphanum

/-- A lower-case hexadecimal digit. -/
def isLowerHex (c : Char) : Bool := c.isDigit || (97 ≤ c.toNat && c.toNat ≤ 102)

/-- `AUTHOR_DIGEST_RE`. -/
def isAuthorDigest (s : String) : Bool := s.toList.length = 16 && s.toList.all isLowerHex

/-- The text of a UUID as `str` gives it. -/
def isCanonicalUuid (s : String) : Bool :=
  s.toList.length = 36 &&
    s.toList.zipIdx.all fun (c, i) => if i ∈ [8, 13, 18, 23] then c = '-' else isLowerHex c

/-- A text `uuid.UUID` reads: 32 hexadecimal digits between dashes and braces. -/
def isUuid (s : String) : Bool :=
  let digits := s.toList.filter fun c => c ≠ '-' ∧ c ≠ '\x7b' ∧ c ≠ '\x7d'
  digits.length = 32 && digits.all fun c => (hexValue c).isSome

/-- `n` digits. -/
def fixedDigits (n : ℕ) (text : List Char) : Option (ℕ × List Char) :=
  let digits := text.take n
  if digits.length = n ∧ digits.all Char.isDigit then
    some (Nat.ofDigitChars 10 digits 0, text.drop n)
  else none

/-- One given character. -/
def expectChar (c : Char) (text : List Char) : Option (List Char) :=
  if text.head? = some c then some text.tail else none

/-- A date, a time and an offset in minutes, as `RFC3339_RE` finds them. -/
structure Rfc3339 where
  year : ℕ
  month : ℕ
  day : ℕ
  hour : ℕ
  minute : ℕ
  second : ℕ
  offset : ℕ

/-- An optional fraction of one to nine digits. -/
def skipFraction (text : List Char) : Option (List Char) :=
  match text with
  | '.' :: rest =>
    let digits := rest.takeWhile Char.isDigit
    if digits ≠ [] ∧ digits.length ≤ 9 then some (rest.dropWhile Char.isDigit) else none
  | _ => some text

/-- The zone, up to the end. -/
def parseZone (text : List Char) : Option ℕ :=
  match text with
  | ['Z'] => some 0
  | sign :: rest =>
    if sign = '+' ∨ sign = '-' then do
      let (hours, rest) ← fixedDigits 2 rest
      let rest ← expectChar ':' rest
      let (minutes, rest) ← fixedDigits 2 rest
      if rest = [] then some (60 * hours + minutes) else none
    else none
  | [] => none

/-- `RFC3339_RE`. -/
def parseRfc3339 (s : String) : Option Rfc3339 := do
  let (year, rest) ← fixedDigits 4 s.toList
  let rest ← expectChar '-' rest
  let (month, rest) ← fixedDigits 2 rest
  let rest ← expectChar '-' rest
  let (day, rest) ← fixedDigits 2 rest
  let rest ← expectChar 'T' rest
  let (hour, rest) ← fixedDigits 2 rest
  let rest ← expectChar ':' rest
  let (minute, rest) ← fixedDigits 2 rest
  let rest ← expectChar ':' rest
  let (second, rest) ← fixedDigits 2 rest
  let rest ← skipFraction rest
  let offset ← parseZone rest
  return ⟨year, month, day, hour, minute, second, offset⟩

/-- The days of a month. -/
def daysInMonth (year month : ℕ) : ℕ :=
  if month = 2 then
    if year % 4 = 0 ∧ (year % 100 ≠ 0 ∨ year % 400 = 0) then 29 else 28
  else if month ∈ [4, 6, 9, 11] then 30
  else 31

/-- `datetime.fromisoformat` takes it. -/
def Rfc3339.valid (t : Rfc3339) : Bool :=
  1 ≤ t.year && 1 ≤ t.month && t.month ≤ 12 && 1 ≤ t.day && t.day ≤ daysInMonth t.year t.month &&
    t.hour ≤ 23 && t.minute ≤ 59 && t.second ≤ 59 && t.offset < 1440

/-- `_validate_rfc3339`. -/
def validateRfc3339 (value : Value) (field : String) : Except Refusal Unit :=
  match value with
  | .str s =>
    if s.length > 64 then refuse field "expected an RFC3339 timestamp with timezone"
    else
      match parseRfc3339 s with
      | none => refuse field "expected an RFC3339 timestamp with timezone"
      | some t => if t.valid then .ok () else refuse field "invalid RFC3339 timestamp"
  | _ => refuse field "expected an RFC3339 timestamp with timezone"

/-! ### Event types -/

/-- `CANONICAL_EVENT_TYPES`. -/
def canonicalEventTypes : List String :=
  ["status", "monitor", "user_need", "user_confirm", "result", "blocked", "advisory", "steering",
    "controller-question", "controller-answer", "controller-notice", "controller-coordination",
    "coordination", "notice"]

/-- The aliases of `advisory` in `EVENT_TYPE_COMPATIBILITY_ALIASES`. -/
def advisoryAliases : List String :=
  ["ack", "bug-fix-handoff", "bug-haul", "canonization-update", "catalog-asks-response",
    "catalog-handoff", "catalog-handoff-ack", "catalog-integration-ack",
    "catalog-state-consolidation", "catalog-update", "consolidation-request",
    "controller-handoff", "controller-note", "controller_coordination", "controller_report",
    "controller_request", "coord", "coordination-answer", "coordination-update",
    "corpus-merge-notice", "defect-notice", "fea-complete-ontario-handoff", "fea-contract-ready",
    "finding", "fki-ref-fixed", "forensics", "idea-relay", "merge-ack", "merge-package-handoff",
    "merge-request", "note", "ontario-division-ack", "patch", "qa-bug", "qa-complete", "qa-round",
    "question", "raise-coordination", "reply", "request", "ruling", "sequencing-decision",
    "sequencing-reconcile", "web-fix-block-handoff"]

/-- `EVENT_TYPE_COMPATIBILITY_ALIASES`. -/
def eventTypeCompatibilityAliases : List (String × String) :=
  advisoryAliases.map (·, "advisory") ++
    [("steer", "steering"), ("user_confirm_reply", "user_confirm")]

/-- The keys of `EVENT_TYPE_REGISTRY`. -/
def eventTypeRegistry : List String :=
  canonicalEventTypes ++ eventTypeCompatibilityAliases.map Prod.fst

/-- `canonical_event_type`. -/
def canonicalEventType (msgType : String) : String :=
  (eventTypeCompatibilityAliases.lookup msgType).getD msgType

/-- `CONTROLLER_CHANNEL_TYPES`. -/
def controllerChannelTypes : List String :=
  ["controller-question", "controller-answer", "controller-notice", "controller-coordination",
    "coordination", "notice"]

/-- `CONTROLLER_ADDRESSEE_TYPES`. -/
def controllerAddresseeTypes : List String :=
  controllerChannelTypes ++ ["merge-request", "patch", "finding"]

/-- `PRIORITY_BY_TYPE`. -/
def priorityByType : List (String × String) :=
  [("user_need", "urgent"), ("user_confirm", "urgent"), ("blocked", "urgent")]

/-! ### The JSON tree -/

/-- `MAX_JSON_DEPTH`. -/
def maxJsonDepth : ℕ := 32

/-- `MAX_ENVELOPE_JSON_BYTES`. -/
def maxEnvelopeJsonBytes : ℕ := 1048576

/-- `MAX_PAYLOAD_JSON_BYTES`. -/
def maxPayloadJsonBytes : ℕ := 786432

mutual

/-- `_validate_json_tree`: the first fault, in traversal order. -/
def treeFault (depth : ℕ) (field : String) : Value → Option Fault
  | .nonFinite _ =>
    if depth > maxJsonDepth then
      some ⟨field, "JSON nesting exceeds maximum depth " ++ toString maxJsonDepth⟩
    else some ⟨field, "non-finite JSON number refused"⟩
  | .arr items =>
    if depth > maxJsonDepth then
      some ⟨field, "JSON nesting exceeds maximum depth " ++ toString maxJsonDepth⟩
    else itemsFault (depth + 1) field 0 items
  | .obj fields =>
    if depth > maxJsonDepth then
      some ⟨field, "JSON nesting exceeds maximum depth " ++ toString maxJsonDepth⟩
    else fieldsFault (depth + 1) field fields
  | _ =>
    if depth > maxJsonDepth then
      some ⟨field, "JSON nesting exceeds maximum depth " ++ toString maxJsonDepth⟩
    else none

def itemsFault (depth : ℕ) (field : String) (index : ℕ) : List Value → Option Fault
  | [] => none
  | v :: rest =>
    (treeFault depth (field ++ "[" ++ toString index ++ "]") v).or
      (itemsFault depth field (index + 1) rest)

def fieldsFault (depth : ℕ) (field : String) : List (String × Value) → Option Fault
  | [] => none
  | (key, v) :: rest =>
    (treeFault depth (field ++ "." ++ key) v).or (fieldsFault depth field rest)

end

/-- `_canonical_json_text`. -/
def canonicalJsonText (value : Value) (field : String) (byteLimit : ℕ) :
    Except Refusal (List Char) :=
  match treeFault 0 field value with
  | some fault => .error (.message fault)
  | none =>
    let text := dumps value
    let size := (Utf8.encode text).length
    if size > byteLimit then
      refuse field ("canonical JSON is " ++ toString size ++ " bytes; limit is " ++
        toString byteLimit)
    else .ok text

/-! ### The envelope -/

/-- `REQUIRED_ENVELOPE_FIELDS`. -/
def requiredEnvelopeFields : List String :=
  ["schema", "schema_version", "id", "dispatch_id", "seq", "ts", "source", "type", "payload"]

/-- `mapping.get(key)`. -/
def getField (fields : List (String × Value)) (key : String) : Value :=
  (fields.lookup key).getD .null

/-- `_canonical_project_root_text`, where the root resolves. -/
abbrev Roots := String → Option String

/-- The checks of `source`. -/
def checkSource (source : Value) : Except Refusal Unit := do
  let .obj fields := source | refuse ".source" "expected object"
  for key in ["node", "adapter", "transport"] do
    if (fields.lookup key).isNone then refuse ".source" ("missing " ++ key)
    let _ ← boundedNonblankString (getField fields key) (".source." ++ key) 128
  if (fields.lookup "controller_label").isSome then
    let _ ← boundedNonblankString (getField fields "controller_label") ".source.controller_label" 128

/-- The checks of `addressee`, for an envelope of a type. -/
def checkAddressee (roots : Roots) (addressee : Value) (msgType : String) :
    Except Refusal Unit := do
  if addressee ≠ .null then
    let .obj fields := addressee | refuse ".addressee" "expected object"
    if getField fields "kind" ≠ .str "controller" then
      refuse ".addressee.kind" "unsupported addressee kind"
    let _ ← boundedNonblankString (getField fields "label") ".addressee.label" 64
    let root ← boundedNonblankString (getField fields "project_root") ".addressee.project_root" 4096
    if root.toList.head? ≠ some '/' then
      refuse ".addressee.project_root" "expected an absolute path"
    match roots root with
    | none => refuse ".addressee.project_root" ("unresolvable project root '" ++ root ++ "'")
    | some canonical =>
      if root ≠ canonical then
        refuse ".addressee.project_root" ("expected canonical root '" ++ canonical ++ "'")
    if canonicalEventType msgType ∉ controllerChannelTypes ∧
        msgType ∉ controllerAddresseeTypes then
      refuse ".addressee" ("controller addressing is only valid for controller-channel types " ++
        "or merge-request/patch/finding; use --type controller-notice with " ++
        "--to-controller LABEL")

/-- The checks of `validate_envelope` but those of the tree. -/
def checkEnvelope (roots : Roots) (expectedDispatchId : Option String) (envelope : Value) :
    Except Refusal Unit := do
  let .obj fields := envelope | refuse "" "expected object"
  match requiredEnvelopeFields.find? fun key => (fields.lookup key).isNone with
  | some key => refuse "" ("missing field: " ++ key)
  | none =>
  if getField fields "schema" ≠ .str "goalflight.message.v1" then
    refuse "" "schema must be goalflight.message.v1"
  if getField fields "schema_version" ≠ .int 1 then refuse "" "unsupported schema_version"
  let eventId ← boundedNonblankString (getField fields "id") ".id" 36
  if ¬ isUuid eventId then refuse ".id" "expected a UUID"
  if ¬ isCanonicalUuid eventId then refuse ".id" "expected a canonical lowercase UUID"
  match getField fields "dispatch_id" with
  | .str dispatchId =>
    if ¬ isStreamToken dispatchId then
      refuse ".dispatch_id" ("expected a 1..255 character stream token " ++
        "using letters, digits, '.', '_', ':', '@', '+', or '-'")
    if expectedDispatchId.any (· ≠ dispatchId) then
      refuse ".dispatch_id" ("'" ++ dispatchId ++ "' does not match stream '" ++
        expectedDispatchId.getD "" ++ "'")
  | _ => refuse ".dispatch_id" ("expected a 1..255 character stream token " ++
      "using letters, digits, '.', '_', ':', '@', '+', or '-'")
  match getField fields "seq" with
  | .int seq => if seq < 1 then refuse ".seq" "seq must be an integer >= 1"
  | _ => refuse ".seq" "seq must be an integer >= 1"
  validateRfc3339 (getField fields "ts") ".ts"
  checkSource (getField fields "source")
  match getField fields "author_digest" with
  | .null => pure ()
  | .str digest =>
    if ¬ isAuthorDigest digest then
      refuse ".author_digest" "expected a 16-character hex digest"
  | _ => refuse ".author_digest" "expected a 16-character hex digest"
  match getField fields "type" with
  | .str msgType =>
    if ¬ isMessageType msgType then refuse ".type" "expected a bounded message-type token"
    if msgType ∉ eventTypeRegistry then
      .error (.message ⟨none, "unregistered message type; expected one of " ++
        String.intercalate ", " (eventTypeRegistry.mergeSort (· ≤ ·))⟩)
    match fields.lookup "priority" with
    | none => pure ()
    | some (.str priority) =>
      if priority ∉ ["normal", "urgent"] then
        refuse ".priority" "expected one of normal, urgent"
    | some (.arr _) => .error .typeError
    | some (.obj _) => .error .typeError
    | some _ => refuse ".priority" "expected one of normal, urgent"
    match getField fields "payload" with
    | .obj _ => pure ()
    | _ => refuse ".payload" "expected object"
    checkAddressee roots (getField fields "addressee") msgType
  | _ => refuse ".type" "expected a bounded message-type token"

/-- `validate_envelope`: the envelope's one-line text. -/
def validateEnvelope (roots : Roots) (expectedDispatchId : Option String) (envelope : Value) :
    Except Refusal (List Char) := do
  checkEnvelope roots expectedDispatchId envelope
  canonicalJsonText envelope "" maxEnvelopeJsonBytes

/-- `int(envelope["seq"])`. -/
def seqOf (envelope : Value) : ℤ :=
  match envelope with
  | .obj fields =>
    match getField fields "seq" with
    | .int seq => seq
    | _ => 0
  | _ => 0

theorem canonicalJsonText_eq_ok {value : Value} {field : String} {byteLimit : ℕ}
    {text : List Char} (h : canonicalJsonText value field byteLimit = .ok text) :
    text = dumps value ∧ (Utf8.encode text).length ≤ byteLimit := by
  unfold canonicalJsonText at h
  split at h
  · cases h
  · simp only at h
    split at h
    · cases h
    · rename_i hsize
      cases h
      exact ⟨rfl, Nat.not_lt.mp hsize⟩

theorem validateEnvelope_eq_ok {roots : Roots} {expected : Option String} {envelope : Value}
    {text : List Char} (h : validateEnvelope roots expected envelope = .ok text) :
    checkEnvelope roots expected envelope = .ok () ∧ text = dumps envelope ∧
      (Utf8.encode text).length ≤ maxEnvelopeJsonBytes := by
  unfold validateEnvelope at h
  cases hcheck : checkEnvelope roots expected envelope with
  | error refusal =>
    rw [hcheck] at h
    cases h
  | ok _ =>
    rw [hcheck] at h
    exact ⟨rfl, canonicalJsonText_eq_ok h⟩

theorem checkEnvelope_obj {roots : Roots} {expected : Option String} {envelope : Value}
    (h : checkEnvelope roots expected envelope = .ok ()) : ∃ fields, envelope = .obj fields := by
  cases envelope with
  | obj fields => exact ⟨fields, rfl⟩
  | _ => cases h

end GoalFlight.Messages
