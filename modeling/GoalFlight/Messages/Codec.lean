import GoalFlight.Library.JsonCut
import GoalFlight.Library.Lines
import GoalFlight.Messages.Envelope

/-!
# The carrier codec

A carrier file is one envelope a line.  The writer puts the canonical text of an accepted
envelope and a line feed; the reader splits bytes into lines, drops blank ones, and keeps
the lines that decode, parse, validate and have a new number.  `carrier_roundTrip` has the
reader give back what the writer wrote.
-/

namespace GoalFlight.Messages

open Json Utf8

variable {roots : Roots} {envelope : Value} {dispatchId : String} {envelopes : List Document}

/-! ### Reading -/

/-- The line ends of `bytes.splitlines`. -/
def carrierBreaks : Lines.Breaks UInt8 where
  isBreak b := b = 10 || b = 13
  joins a b := a = 13 && b = 10
  joins_isBreak a b h := by
    rw [Bool.and_eq_true, decide_eq_true_eq, decide_eq_true_eq] at h
    rw [h.2]
    rfl

/-- The bytes that `bytes.strip` drops. -/
def isByteSpace (b : UInt8) : Bool := (9 ≤ b && b ≤ 13) || b = 32

/-- What one line is. -/
inductive LineRead
  | blank
  | envelope (v : Value)
  | fault (reason : String)
  | typeError

/-- One line of a carrier, after envelopes with the numbers `seen`. -/
def readLine (roots : Roots) (dispatchId path : String) (seen : List ℤ) (raw : Bytes) :
    LineRead :=
  if raw.all isByteSpace then .blank
  else
    match decode raw with
    | none => .fault "invalid UTF-8"
    | some text =>
      match loads text with
      | none => .fault "invalid JSON"
      | some v =>
        match validateEnvelope roots (some dispatchId) v with
        | .error .typeError => .typeError
        | .error (.message fault) => .fault (fault.render path)
        | .ok _ =>
          if seqOf v ∈ seen then .fault ("duplicate sequence number: " ++ toString (seqOf v))
          else .envelope v

/-- `CarrierReadStatus`. -/
inductive CarrierReadStatus
  | ok
  | corruptRecordsQuarantined
  | carrierMissing
  | carrierUnreadable

/-- A quarantined line: its number and why. -/
structure CarrierError where
  line : ℕ
  reason : String

/-- `CarrierReadResult`. -/
structure CarrierReadResult where
  status : CarrierReadStatus
  envelopes : List Value
  errors : List CarrierError

/-- The lines of a carrier, after `envelopes` and `errors`.  A `TypeError` ends the read. -/
def readLines (roots : Roots) (dispatchId path : String) (tolerateErrors : Bool) :
    ℕ → List Value → List CarrierError → List Bytes → Option (List Value × List CarrierError)
  | _, envelopes, errors, [] => some (envelopes, errors)
  | lineNo, envelopes, errors, raw :: rest =>
    match readLine roots dispatchId (path ++ ":" ++ toString lineNo) (envelopes.map seqOf) raw with
    | .blank => readLines roots dispatchId path tolerateErrors (lineNo + 1) envelopes errors rest
    | .envelope v =>
      readLines roots dispatchId path tolerateErrors (lineNo + 1) (envelopes ++ [v]) errors rest
    | .fault reason =>
      if tolerateErrors then
        readLines roots dispatchId path tolerateErrors (lineNo + 1) envelopes
          (errors ++ [⟨lineNo, reason⟩]) rest
      else some (envelopes, errors ++ [⟨lineNo, reason⟩])
    | .typeError => none

/-- `_read_envelope_records` of the bytes of a file. -/
def readEnvelopeRecords (roots : Roots) (dispatchId path : String) (tolerateErrors : Bool)
    (data : Bytes) : Option CarrierReadResult :=
  (readLines roots dispatchId path tolerateErrors 1 [] [] (carrierBreaks.lines data)).map
    fun (envelopes, errors) =>
      ⟨if errors = [] then .ok else .corruptRecordsQuarantined, envelopes, errors⟩

/-- `read_envelopes_result` of a file that may be missing. -/
def readEnvelopesResult (roots : Roots) (dispatchId path : String) (file : Option Bytes) :
    CarrierReadResult :=
  match file with
  | none => ⟨.carrierMissing, [], [⟨0, "carrier is missing"⟩]⟩
  | some data =>
    (readEnvelopeRecords roots dispatchId path true data).getD
      ⟨.carrierUnreadable, [], [⟨0, "TypeError: carrier read failed"⟩]⟩

/-! ### Writing -/

/-- `_serialize_envelope_for_stream`. -/
def serializeEnvelopeForStream (roots : Roots) (dispatchId : String) (envelope : Value) :
    Except Refusal Bytes := do
  let text ← validateEnvelope roots (some dispatchId) envelope
  return encode text ++ [10]

/-- `_carrier_rewrite_locked`: the bytes that replace the file. -/
def carrierRewriteLocked (roots : Roots) (dispatchId : String) :
    List Value → Except Refusal Bytes
  | [] => .ok []
  | envelope :: rest => do
      let line ← serializeEnvelopeForStream roots dispatchId envelope
      let more ← carrierRewriteLocked roots dispatchId rest
      return line ++ more

/-- `_carrier_append_locked`, where the write takes all bytes. -/
def carrierAppendLocked (roots : Roots) (dispatchId : String) (data : Bytes) (envelope : Value) :
    Except Refusal Bytes := do
  let line ← serializeEnvelopeForStream roots dispatchId envelope
  return data ++ line

/-! ### One line -/

/-- The bytes of an encoded envelope, without the line feed. -/
def lineOf (envelope : Value) : Bytes := encode (dumps envelope)

theorem lineOf_noControl {b : UInt8} (hb : b ∈ lineOf envelope) :
    32 ≤ b.toNat := by
  by_contra hlow
  have hascii : b.toNat < 128 := by omega
  obtain ⟨c, hc, hcode⟩ := mem_of_ascii_mem_encode hb hascii
  have hcontrol := dumps_noControl envelope c hc
  omega

theorem lineOf_no_break : ∀ b ∈ lineOf envelope,
    carrierBreaks.isBreak b = false := by
  intro b hb
  have hlow := lineOf_noControl hb
  show (decide (b = 10) || decide (b = 13)) = false
  rw [Bool.or_eq_false_iff, decide_eq_false_iff_not, decide_eq_false_iff_not]
  constructor
  · rintro rfl
    exact absurd hlow (by decide)
  · rintro rfl
    exact absurd hlow (by decide)

theorem lineOf_obj (fields : List (String × Value)) :
    ∃ rest, lineOf (.obj fields) = 123 :: rest := by
  obtain ⟨text, htext⟩ := dumps_obj_head fields
  refine ⟨encode text, ?_⟩
  unfold lineOf
  rw [htext, encode_cons]
  rfl

theorem serializeEnvelopeForStream_eq {text : List Char}
    (h : validateEnvelope roots (some dispatchId) envelope = .ok text) :
    serializeEnvelopeForStream roots dispatchId envelope = .ok (lineOf envelope ++ [10]) := by
  unfold serializeEnvelopeForStream
  rw [h, (validateEnvelope_eq_ok h).2.1]
  rfl

theorem readLine_lineOf {path : String} {seen : List ℤ} {envelope : Document}
    {text : List Char} (h : validateEnvelope roots (some dispatchId) envelope.1 = .ok text)
    (hseq : seqOf envelope.1 ∉ seen) :
    readLine roots dispatchId path seen (lineOf envelope.1) = .envelope envelope.1 := by
  obtain ⟨hcheck, -, -⟩ := validateEnvelope_eq_ok h
  obtain ⟨fields, hfields⟩ := checkEnvelope_obj hcheck
  have hblank : (lineOf envelope.1).all isByteSpace = false := by
    obtain ⟨rest, hrest⟩ := lineOf_obj fields
    rw [hfields, hrest]
    rfl
  have hdecode : decode (lineOf envelope.1) = some (dumps envelope.1) := decode_encode _
  unfold readLine
  rw [hblank, if_neg Bool.false_ne_true, hdecode]
  simp only
  rw [loads_dumps envelope.2]
  simp only
  rw [h]
  simp only
  rw [if_neg hseq]

theorem readLines_lineOf (path : String) (tolerateErrors : Bool)
    (haccepted : ∀ e ∈ envelopes, ∃ text, validateEnvelope roots (some dispatchId) e.1 = .ok text)
    (lineNo : ℕ) (before : List Value) (errors : List CarrierError)
    (hseq : ((before ++ envelopes.map Subtype.val).map seqOf).Nodup) :
    readLines roots dispatchId path tolerateErrors lineNo before errors
      (envelopes.map fun e => lineOf e.1) =
        some (before ++ envelopes.map Subtype.val, errors) := by
  induction envelopes generalizing lineNo before with
  | nil =>
    rw [List.map_nil, List.map_nil, List.append_nil]
    rfl
  | cons e envelopes ih =>
    obtain ⟨text, htext⟩ := haccepted e List.mem_cons_self
    have hnew : seqOf e.1 ∉ before.map seqOf := by
      rw [List.map_append, List.nodup_append] at hseq
      intro hmem
      exact hseq.2.2 _ hmem _ (List.mem_map_of_mem (List.mem_map_of_mem List.mem_cons_self)) rfl
    have hassoc : before ++ (e :: envelopes).map Subtype.val =
        (before ++ [e.1]) ++ envelopes.map Subtype.val := by
      rw [List.map_cons, List.append_assoc, List.singleton_append]
    rw [List.map_cons]
    unfold readLines
    rw [readLine_lineOf htext hnew]
    simp only
    rw [ih (fun d hd => haccepted d (List.mem_cons_of_mem _ hd)) (lineNo + 1) (before ++ [e.1])
      (by rwa [← hassoc]), ← hassoc]

/-! ### The round trip -/

section

variable
  (haccepted : ∀ e ∈ envelopes, ∃ text, validateEnvelope roots (some dispatchId) e.1 = .ok text)
include haccepted

theorem carrierRewriteLocked_eq :
    carrierRewriteLocked roots dispatchId (envelopes.map Subtype.val) =
      .ok (Lines.Breaks.join 10 (envelopes.map fun e => lineOf e.1)) := by
  induction envelopes with
  | nil => rfl
  | cons e envelopes ih =>
    obtain ⟨text, htext⟩ := haccepted e List.mem_cons_self
    rw [List.map_cons, List.map_cons]
    unfold carrierRewriteLocked
    rw [serializeEnvelopeForStream_eq htext,
      ih fun d hd => haccepted d (List.mem_cons_of_mem _ hd)]
    rfl

theorem foldlM_carrierAppendLocked (data : Bytes) :
    (envelopes.map Subtype.val).foldlM (carrierAppendLocked roots dispatchId) data =
      .ok (data ++ Lines.Breaks.join 10 (envelopes.map fun e => lineOf e.1)) := by
  induction envelopes generalizing data with
  | nil =>
    rw [List.map_nil, List.map_nil]
    show Except.ok data = .ok (data ++ [])
    rw [List.append_nil]
  | cons e envelopes ih =>
    obtain ⟨text, htext⟩ := haccepted e List.mem_cons_self
    have happend : carrierAppendLocked roots dispatchId data e.1 =
        .ok (data ++ (lineOf e.1 ++ [10])) := by
      unfold carrierAppendLocked
      rw [serializeEnvelopeForStream_eq htext]
      rfl
    rw [List.map_cons, List.foldlM_cons, happend]
    show (envelopes.map Subtype.val).foldlM (carrierAppendLocked roots dispatchId)
      (data ++ (lineOf e.1 ++ [10])) = _
    rw [ih fun d hd => haccepted d (List.mem_cons_of_mem _ hd)]
    unfold Lines.Breaks.join
    rw [List.map_cons, List.flatMap_cons, List.append_assoc]

end

/-- **The codec round-trips.**  For envelopes of one stream that validation accepts, with
distinct numbers: rewriting the carrier, and appending them one by one to an empty one,
leave the same bytes, which read back without an error as exactly the envelopes.  Each
line has no carriage return or line feed, stays within the bound, and decodes to its
envelope. -/
theorem carrier_roundTrip {roots : Roots} {dispatchId path : String} {tolerateErrors : Bool}
    {envelopes : List Document}
    (haccepted : ∀ e ∈ envelopes, ∃ text, validateEnvelope roots (some dispatchId) e.1 = .ok text)
    (hseq : (envelopes.map fun e => seqOf e.1).Nodup) :
    ∃ data, carrierRewriteLocked roots dispatchId (envelopes.map Subtype.val) = .ok data ∧
      (envelopes.map Subtype.val).foldlM (carrierAppendLocked roots dispatchId) [] = .ok data ∧
      readEnvelopeRecords roots dispatchId path tolerateErrors data =
        some ⟨.ok, envelopes.map Subtype.val, []⟩ ∧
      ∀ e ∈ envelopes, ∃ line,
        serializeEnvelopeForStream roots dispatchId e.1 = .ok (line ++ [10]) ∧
        10 ∉ line ∧ 13 ∉ line ∧ line.length ≤ maxEnvelopeJsonBytes ∧
        (decode line).bind loads = some e.1 := by
  refine ⟨Lines.Breaks.join 10 (envelopes.map fun e => lineOf e.1),
    carrierRewriteLocked_eq haccepted, ?_, ?_, ?_⟩
  · rw [foldlM_carrierAppendLocked haccepted, List.nil_append]
  · have hlines : carrierBreaks.lines (Lines.Breaks.join 10 (envelopes.map fun e => lineOf e.1)) =
        envelopes.map fun e => lineOf e.1 := by
      refine carrierBreaks.lines_join rfl fun line hline => ?_
      obtain ⟨e, he, rfl⟩ := List.mem_map.mp hline
      obtain ⟨text, htext⟩ := haccepted e he
      obtain ⟨fields, hfields⟩ := checkEnvelope_obj (validateEnvelope_eq_ok htext).1
      obtain ⟨rest, hrest⟩ := lineOf_obj fields
      refine ⟨?_, lineOf_no_break⟩
      rw [hfields, hrest]
      exact List.cons_ne_nil _ _
    have hread := readLines_lineOf path tolerateErrors haccepted 1 [] []
      (by rwa [List.nil_append, List.map_map])
    unfold readEnvelopeRecords
    rw [hlines, hread]
    rfl
  · intro e he
    obtain ⟨text, htext⟩ := haccepted e he
    obtain ⟨-, rfl, hsize⟩ := validateEnvelope_eq_ok htext
    refine ⟨lineOf e.1, serializeEnvelopeForStream_eq htext, ?_, ?_, hsize, ?_⟩
    · intro hmem
      exact absurd (lineOf_noControl hmem) (by decide)
    · intro hmem
      exact absurd (lineOf_noControl hmem) (by decide)
    · unfold lineOf
      rw [decode_encode, Option.bind_some, loads_dumps e.2]

/-- A carrier with one notice. -/
theorem carrier_roundTrip_notice :
    let notice : Document := ⟨.obj [("schema", .str "goalflight.message.v1"),
      ("schema_version", .int 1), ("id", .str "00000000-0000-4000-8000-000000000001"),
      ("dispatch_id", .str "d1"), ("seq", .int 1), ("ts", .str "2026-01-02T03:04:05Z"),
      ("source", .obj [("node", .str "local"), ("adapter", .str "a"), ("transport", .str "t")]),
      ("type", .str "notice"), ("payload", .obj [("text", .str "a\nb")])], by decide⟩
    ∃ data, carrierRewriteLocked (fun _ => none) "d1" [notice.1] = .ok data ∧
      readEnvelopeRecords (fun _ => none) "d1" "d1.jsonl" true data =
        some ⟨.ok, [notice.1], []⟩ := by
  intro notice
  have haccepted : ∀ e ∈ [notice], ∃ text,
      validateEnvelope (fun _ => none) (some "d1") e.1 = .ok text := by
    intro e he
    rw [List.mem_singleton.mp he]
    have hok : (validateEnvelope (fun _ => none) (some "d1") notice.1).toOption.isSome = true := by
      decide +kernel
    cases hresult : validateEnvelope (fun _ => none) (some "d1") notice.1 with
    | ok text => exact ⟨text, rfl⟩
    | error refusal =>
      rw [hresult] at hok
      cases hok
  obtain ⟨data, hwrite, -, hread, -⟩ :=
    carrier_roundTrip haccepted (List.nodup_singleton _)
  exact ⟨data, hwrite, hread⟩

end GoalFlight.Messages
