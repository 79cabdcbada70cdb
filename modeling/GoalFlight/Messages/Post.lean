import GoalFlight.Messages.Codec

/-!
# Posting to a carrier file

`post_message` without replacements, down to the bytes: it reads the carrier, answers a
known event with the stored envelope, gives a new one the next number, and appends its line
to whatever bytes are there.  `_append_fsync` writes without a buffer and does not look at
how many bytes the write took.

`post_readable_iff` has the exact prior content and writes after which the carrier reads as
before with the new envelope at its end.
-/

namespace GoalFlight.Messages

open Json Utf8

variable {data : Bytes} {roots : Roots} {dispatchId path : String} {file : Option Bytes}
  {raw : Bytes} {seen : List ℤ} {file' : Option Bytes}

/-! ### The request -/

/-- The arguments of `post_message` that reach the envelope. -/
structure PostArgs where
  dispatchId : String
  msgType : String
  payload : Mapping
  source : List (String × Document) := []
  seq : Option ℤ := none
  priority : Option String := none
  addressee : Option Mapping := none
  eventId : Option String := none
  eventTs : Option String := none
  authorDigest : Option String := none
  steerRetry : Bool := false
  skipIf : Value → Bool := fun _ => false

variable {args : PostArgs}

/-- What a call finds outside the carrier. -/
structure PostEnvironment where
  roots : Roots
  /-- The refusals before the envelope is built. -/
  preflight : Except String Unit
  redact : Mapping → Mapping
  freshId : String
  now : String
  controllerLabel : Option String
  ingestionOrder : Value → Except String ℤ
  prepareJournalDelivery : Value → Except String Unit
  /-- How many bytes at the end of the text the write does not take. -/
  unwritten : ℕ
  /-- The journal's marks and the worker's copy. -/
  deliver : Value → Except String Unit

variable {w : PostEnvironment}

/-- `not str(value or "").strip()`. -/
def blankText : Value → Bool
  | .null | .bool false | .int 0 | .arr [] | .obj [] => true
  | .str s => s.toList.all isSpace
  | _ => false

/-- The source of the envelope: the defaults, the caller's fields, and the controller's label
on controller mail (`_stamp_controller_source_label`). -/
def baseSource (w : PostEnvironment) (args : PostArgs) : Mapping :=
  let source := (((Mapping.empty.set "node" ⟨.str "local", rfl⟩).set "adapter"
    ⟨.str "unknown", rfl⟩).set "transport" ⟨.str "controller", rfl⟩).update args.source
  if getField source.1 "transport" = .str "controller" ∧
      blankText (getField source.1 "controller_label") then
    source.set "controller_label" ⟨.str (w.controllerLabel.getD "UNKNOWN"), rfl⟩
  else source

/-- The fields every envelope has, in order. -/
def requiredMapping (w : PostEnvironment) (args : PostArgs) : Mapping :=
  Mapping.empty.set "schema" ⟨.str "goalflight.message.v1", rfl⟩
    |>.set "schema_version" ⟨.int 1, rfl⟩
    |>.set "id" ⟨.str ((args.eventId.filter (· ≠ "")).getD w.freshId), rfl⟩
    |>.set "dispatch_id" ⟨.str args.dispatchId, rfl⟩
    |>.set "seq" ⟨.int (args.seq.getD 1), rfl⟩
    |>.set "ts" ⟨.str ((args.eventTs.filter (· ≠ "")).getD w.now), rfl⟩
    |>.set "source" (baseSource w args).document
    |>.set "type" ⟨.str args.msgType, rfl⟩
    |>.set "priority" ⟨.str ((args.priority.filter (· ≠ "")).getD
      ((priorityByType.lookup (canonicalEventType args.msgType)).getD "normal")), rfl⟩
    |>.set "payload" (w.redact args.payload).document

/-- The envelope before its number is admitted. -/
def draftEnvelope (w : PostEnvironment) (args : PostArgs) : Mapping :=
  let signed := match args.authorDigest with
    | none => requiredMapping w args
    | some digest => (requiredMapping w args).set "author_digest" ⟨.str digest, rfl⟩
  match args.addressee with
  | none => signed
  | some addressee => signed.set "addressee" addressee.document

/-! ### Retries -/

/-- `value.pop(key, None)`. -/
def popField (fields : List (String × Value)) (key : String) : List (String × Value) :=
  fields.filter fun field => field.1 ≠ key

/-- What a steering retry may change in its source or payload. -/
def steerFields (value : Value) (hasProjectIdentity : Bool) : Value :=
  match value with
  | .obj fields =>
    let fields := popField (popField fields "controller_pid") "controller_session_id"
    if hasProjectIdentity then
      let fields := popField fields "project_root"
      match fields.lookup "sender" with
      | some (.obj sender) =>
        .obj (setField fields "sender"
          (.obj (popField (popField sender "controller_pid") "project_root")))
      | _ => .obj fields
    else .obj fields
  | other => other

/-- `retry_fields`. -/
def retryFields (steerRetry : Bool) (fields : List (String × Value)) : List Value :=
  let source := getField fields "source"
  let payload := getField fields "payload"
  let hasProjectIdentity := match source with
    | .obj source => (source.lookup "project_identity").isSome
    | _ => false
  ["schema", "schema_version", "id", "dispatch_id", "type", "priority", "addressee",
    "author_digest"].map (getField fields) ++
    if steerRetry then [steerFields source hasProjectIdentity, steerFields payload hasProjectIdentity]
    else [getField fields "ts", source, payload]

/-- The node of an envelope's source. -/
def originNode (fields : List (String × Value)) : Value :=
  match getField fields "source" with
  | .obj source => getField source "node"
  | _ => .null

/-- The stored envelope with the identity of a new one. -/
def sameIdentity (existing : List Value) (envelope : Mapping) : Option (List (String × Value)) :=
  existing.findSome? fun item =>
    match item with
    | .obj fields =>
      if getField fields "id" = getField envelope.1 "id" ∧
          originNode fields = originNode envelope.1 then some fields
      else none
    | _ => none

/-! ### Posting -/

/-- `_admit_stream_seq`. -/
def admitSeq (providedSeq : Option ℤ) (envelopes : List Value) : ℤ :=
  let highWater := ((envelopes.map seqOf).max?).getD 0
  match providedSeq with
  | none => highWater + 1
  | some seq => if seq ≤ highWater then highWater + 1 else seq

/-- What `post_message` returns. -/
structure PostResult where
  envelope : Value
  recorded : Bool

variable {result : PostResult}

/-- A refusal as the error it raises. -/
def refusalText (path : String) : Refusal → String
  | .message fault => fault.render path
  | .typeError => "TypeError"

/-- The envelope that is appended: with its admitted number and its ingestion order. -/
def admittedEnvelope (draft : Mapping) (seq order : ℤ) : Mapping :=
  (draft.set "seq" ⟨.int seq, rfl⟩).set "_goalflight_ingestion_order" ⟨.int order, rfl⟩

/-- `_append_fsync`, with the bytes the write does not take. -/
def appendFsync (unwritten : ℕ) (file : Option Bytes) (data : Bytes) : Option Bytes :=
  some (file.getD [] ++ data.take (data.length - unwritten))

/-- The end of `post_message`: the admitted envelope is serialized, assigned, appended and
delivered. -/
def appendEnvelope (w : PostEnvironment) (args : PostArgs) (envelope : Value)
    (file : Option Bytes) : Except String PostResult × Option Bytes :=
  match validateEnvelope w.roots none envelope with
  | .error e => (.error (refusalText "envelope" e), file)
  | .ok _ =>
    match w.prepareJournalDelivery envelope with
    | .error e => (.error e, file)
    | .ok _ =>
      match serializeEnvelopeForStream w.roots args.dispatchId envelope with
      | .error e => (.error (refusalText "envelope" e), file)
      | .ok line =>
        let file' := appendFsync w.unwritten file line
        match w.deliver envelope with
        | .error e => (.error e, file')
        | .ok _ => (.ok ⟨envelope, true⟩, file')

/-- The part of `post_message` under the carrier's lock. -/
def recordEnvelope (w : PostEnvironment) (args : PostArgs) (draft : Mapping)
    (existing : List Value) (file : Option Bytes) : Except String PostResult × Option Bytes :=
  match sameIdentity existing draft with
  | some stored =>
    if retryFields args.steerRetry stored = retryFields args.steerRetry draft.1 then
      match w.prepareJournalDelivery (.obj stored) with
      | .error e => (.error e, file)
      | .ok _ => (.ok ⟨.obj stored, false⟩, file)
    else (.error ("event identity integrity conflict: same origin_node + event_uuid has " ++
      "different content"), file)
  | none =>
    match existing.find? args.skipIf with
    | some duplicate => (.ok ⟨duplicate, false⟩, file)
    | none =>
      let seq := admitSeq args.seq existing
      let numbered := draft.set "seq" ⟨.int seq, rfl⟩
      match validateEnvelope w.roots (some args.dispatchId) (.obj numbered.1) with
      | .error e => (.error (refusalText "envelope" e), file)
      | .ok _ =>
        match w.ingestionOrder (.obj numbered.1) with
        | .error e => (.error e, file)
        | .ok order =>
          appendEnvelope w args (.obj (admittedEnvelope draft seq order).1) file

/-- `post_message`, without replacements: the result, and the carrier it leaves. -/
def postMessage (w : PostEnvironment) (args : PostArgs) (path : String) (file : Option Bytes) :
    Except String PostResult × Option Bytes :=
  match w.preflight with
  | .error e => (.error e, file)
  | .ok _ =>
    match canonicalJsonText (.obj args.payload.1) "" maxPayloadJsonBytes with
    | .error e => (.error (refusalText "payload" e), file)
    | .ok _ =>
      if args.seq.any (· < 1) then (.error "seq: seq must be an integer >= 1", file)
      else
        let draft := draftEnvelope w args
        match validateEnvelope w.roots (some args.dispatchId) (.obj draft.1) with
        | .error e => (.error (refusalText "envelope" e), file)
        | .ok _ =>
          match readEnvelopeRecords w.roots args.dispatchId path true (file.getD []) with
          | none => (.error "TypeError", file)
          | some existing => recordEnvelope w args draft existing.envelopes file

/-! ### What a recorded post did -/

theorem firstKey_schema (v : Document) : (Mapping.empty.set "schema" v).FirstKey "schema" :=
  ⟨v.1, [], rfl⟩

theorem draftEnvelope_firstKey (w : PostEnvironment) (args : PostArgs) :
    (draftEnvelope w args).FirstKey "schema" := by
  have hrequired : (requiredMapping w args).FirstKey "schema" := by
    unfold requiredMapping
    iterate 9 apply Mapping.FirstKey.set
    exact firstKey_schema _
  have hsigned : (match args.authorDigest with
      | none => requiredMapping w args
      | some digest => (requiredMapping w args).set "author_digest" ⟨.str digest, rfl⟩).FirstKey
      "schema" := by
    split
    · exact hrequired
    · exact hrequired.set _ _
  unfold draftEnvelope
  simp only
  split
  · exact hsigned
  · exact hsigned.set _ _

theorem seqOf_admittedEnvelope (draft : Mapping) (seq order : ℤ) :
    seqOf (.obj (admittedEnvelope draft seq order).1) = seq := by
  have hlookup : (admittedEnvelope draft seq order).1.lookup "seq" = some (.int seq) := by
    show (setField (setField draft.1 "seq" (.int seq)) _ _).lookup "seq" = _
    rw [lookup_setField_of_ne _ (by decide), lookup_setField]
  unfold seqOf getField
  dsimp only
  rw [hlookup]
  rfl

theorem appendEnvelope_recorded {envelope : Value}
    (h : appendEnvelope w args envelope file = (.ok result, file')) :
    result.envelope = envelope ∧
    (∃ text, validateEnvelope w.roots (some args.dispatchId) envelope = .ok text) ∧
    file' = some (file.getD [] ++
      (lineOf envelope ++ [10]).take ((lineOf envelope ++ [10]).length - w.unwritten)) := by
  unfold appendEnvelope at h
  split at h
  · cases h
  split at h
  · cases h
  split at h
  · cases h
  rename_i line hline
  simp only at h
  split at h
  · cases h
  cases hvalid : validateEnvelope w.roots (some args.dispatchId) envelope with
  | error e =>
    unfold serializeEnvelopeForStream at hline
    rw [hvalid] at hline
    cases hline
  | ok text =>
    rw [serializeEnvelopeForStream_eq hvalid] at hline
    cases hline
    cases h
    exact ⟨rfl, ⟨text, rfl⟩, rfl⟩

theorem postMessage_recorded (h : postMessage w args path file = (.ok result, file'))
    (hrecorded : result.recorded = true) :
    ∃ existing : CarrierReadResult, ∃ envelope : Mapping,
      readEnvelopeRecords w.roots args.dispatchId path true (file.getD []) = some existing ∧
      envelope.FirstKey "schema" ∧ result.envelope = .obj envelope.1 ∧
      (∃ text, validateEnvelope w.roots (some args.dispatchId) (.obj envelope.1) = .ok text) ∧
      seqOf (.obj envelope.1) = admitSeq args.seq existing.envelopes ∧
      file' = some (file.getD [] ++ (lineOf (.obj envelope.1) ++ [10]).take
        ((lineOf (.obj envelope.1) ++ [10]).length - w.unwritten)) := by
  unfold postMessage at h
  split at h
  · cases h
  split at h
  · cases h
  split at h
  · cases h
  simp only at h
  split at h
  · cases h
  split at h
  · cases h
  rename_i existing hread
  unfold recordEnvelope at h
  split at h
  · -- A known event is not recorded again.
    split at h
    · split at h
      · cases h
      · cases h
        cases hrecorded
    · cases h
  split at h
  · cases h
    cases hrecorded
  simp only at h
  split at h
  · cases h
  split at h
  · cases h
  rename_i order _
  obtain ⟨henvelope, hvalid, hfile⟩ := appendEnvelope_recorded h
  exact ⟨existing, admittedEnvelope (draftEnvelope w args) _ order, hread,
    ((draftEnvelope_firstKey w args).set _ _).set _ _, henvelope, hvalid,
    seqOf_admittedEnvelope _ _ _, hfile⟩

/-! ### Reading what was appended to -/

theorem readLines_append (roots : Roots) (dispatchId path : String) (lineNo : ℕ)
    (envelopes : List Value) (errors : List CarrierError) (lines rest : List Bytes) :
    readLines roots dispatchId path true lineNo envelopes errors (lines ++ rest) =
      (readLines roots dispatchId path true lineNo envelopes errors lines).bind fun (e, f) =>
        readLines roots dispatchId path true (lineNo + lines.length) e f rest := by
  induction lines generalizing lineNo envelopes errors with
  | nil => rfl
  | cons raw lines ih =>
    have hnumber : lineNo + (raw :: lines).length = lineNo + 1 + lines.length := by
      rw [List.length_cons]
      omega
    rw [List.cons_append, hnumber, readLines, readLines]
    split
    · exact ih _ _ _
    · exact ih _ _ _
    · rw [if_pos rfl, if_pos rfl]
      exact ih _ _ _
    · rfl

/-- The envelope of one line, if it is one. -/
def LineRead.envelopes : LineRead → List Value
  | .envelope v => [v]
  | _ => []

theorem readLines_singleton {lineNo : ℕ} {envelopes : List Value} {errors : List CarrierError}
    {result : List Value × List CarrierError}
    (h : readLines roots dispatchId path true lineNo envelopes errors [raw] = some result) :
    result.1 = envelopes ++ (readLine roots dispatchId (path ++ ":" ++ toString lineNo)
      (envelopes.map seqOf) raw).envelopes := by
  unfold readLines at h
  split at h
  · rename_i hline
    rw [hline]
    cases h
    exact (List.append_nil _).symm
  · rename_i v hline
    rw [hline]
    cases h
    rfl
  · rename_i reason hline
    rw [hline]
    cases h
    exact (List.append_nil _).symm
  · cases h

/-- The ended lines of a carrier, read. -/
def readEnded (roots : Roots) (dispatchId path : String) (data : Bytes) :
    Option (List Value × List CarrierError) :=
  readLines roots dispatchId path true 1 [] [] (carrierBreaks.split data).ended

theorem readEnvelopeRecords_eq_some {result : CarrierReadResult}
    (h : readEnvelopeRecords roots dispatchId path true data = some result) :
    ∃ ended, readEnded roots dispatchId path data = some ended ∧
      result.envelopes = ended.1 ++
        if carrierBreaks.unterminated data = [] then [] else
          (readLine roots dispatchId
            (path ++ ":" ++ toString (1 + (carrierBreaks.split data).ended.length))
            (ended.1.map seqOf) (carrierBreaks.unterminated data)).envelopes := by
  unfold readEnvelopeRecords at h
  rw [carrierBreaks.lines_eq, readLines_append, Option.map_eq_some_iff] at h
  obtain ⟨last, hlast, rfl⟩ := h
  obtain ⟨ended, hended, hlast⟩ := Option.bind_eq_some_iff.mp hlast
  refine ⟨ended, hended, ?_⟩
  show last.1 = _
  by_cases hnil : carrierBreaks.unterminated data = []
  · rw [if_pos hnil] at hlast ⊢
    cases hlast
    exact (List.append_nil _).symm
  · rw [if_neg hnil] at hlast ⊢
    exact readLines_singleton hlast

theorem lines_appended {envelope : Value} {n : ℕ} (hn : 0 < n) (hline : lineOf envelope ≠ []) :
    carrierBreaks.lines (data ++ (lineOf envelope ++ [10]).take n) =
      (carrierBreaks.split data).ended ++
        [carrierBreaks.unterminated data ++ (lineOf envelope).take n] := by
  have hbreak : ∀ b ∈ (lineOf envelope).take n, carrierBreaks.isBreak b = false :=
    fun b hb => lineOf_no_break b (List.mem_of_mem_take hb)
  have hne : (lineOf envelope).take n ≠ [] := by
    rw [ne_eq, List.take_eq_nil_iff, not_or]
    exact ⟨by omega, hline⟩
  by_cases hshort : n ≤ (lineOf envelope).length
  · rw [List.take_append_of_le_length hshort]
    exact carrierBreaks.lines_append data hne hbreak
  · have hall : (lineOf envelope).take n = lineOf envelope :=
      List.take_of_length_le (by omega)
    have hfull : (lineOf envelope ++ [10]).take n = lineOf envelope ++ [10] := by
      apply List.take_of_length_le
      rw [List.length_append, List.length_singleton]
      omega
    rw [hall, hfull]
    exact carrierBreaks.lines_append_line data hline lineOf_no_break rfl

/-- A byte that JSON skips and that ends no line. -/
def isLineBlank (b : UInt8) : Bool := b = 32 || b = 9

theorem unterminated_blank {before : List Char}
    (h : carrierBreaks.unterminated data = encode before)
    (hblank : before.all isBlank = true) :
    (carrierBreaks.unterminated data).all isLineBlank = true := by
  rw [List.all_eq_true] at hblank ⊢
  intro b hb
  have hbreak := carrierBreaks.unterminated_no_break data b hb
  rw [h] at hb
  obtain ⟨c, hc, hbyte⟩ := List.mem_flatMap.mp hb
  have hspace := hblank c hc
  unfold isBlank at hspace
  simp only [Bool.or_eq_true, decide_eq_true_eq] at hspace
  rcases hspace with ((rfl | rfl) | rfl) | rfl
  · rw [List.mem_singleton.mp hbyte]
    rfl
  · rw [List.mem_singleton.mp hbyte]
    rfl
  · rw [List.mem_singleton.mp hbyte] at hbreak
    cases hbreak
  · rw [List.mem_singleton.mp hbyte] at hbreak
    cases hbreak

theorem exists_blank_text {bytes : Bytes} (h : bytes.all isLineBlank = true) :
    ∃ before : List Char, bytes = encode before ∧ before.all isBlank = true := by
  induction bytes with
  | nil => exact ⟨[], rfl, rfl⟩
  | cons b bytes ih =>
    rw [List.all_cons, Bool.and_eq_true] at h
    obtain ⟨before, rfl, hblank⟩ := ih h.2
    have hb := h.1
    unfold isLineBlank at hb
    rw [Bool.or_eq_true, decide_eq_true_eq, decide_eq_true_eq] at hb
    rcases hb with rfl | rfl
    · refine ⟨' ' :: before, rfl, ?_⟩
      rw [List.all_cons, hblank]
      rfl
    · refine ⟨'\t' :: before, rfl, ?_⟩
      rw [List.all_cons, hblank]
      rfl

theorem readLine_blank (h : raw.all isLineBlank = true) :
    (readLine roots dispatchId path seen raw).envelopes = [] := by
  have hspace : raw.all isByteSpace = true := by
    rw [List.all_eq_true] at h ⊢
    intro b hb
    have hb := h b hb
    unfold isLineBlank at hb
    rw [Bool.or_eq_true, decide_eq_true_eq, decide_eq_true_eq] at hb
    rcases hb with rfl | rfl <;> rfl
  unfold readLine
  rw [hspace]
  rfl

theorem readLine_envelope {v : Value}
    (h : readLine roots dispatchId path seen raw = .envelope v) :
    ∃ text, decode raw = some text ∧ loads text = some v ∧ ∃ fields, v = .obj fields := by
  unfold readLine at h
  split at h
  · cases h
  split at h
  · cases h
  rename_i text htext
  split at h
  · cases h
  rename_i w hw
  split at h
  · cases h
  · cases h
  rename_i serialized hvalid
  split at h
  · cases h
  · cases h
    exact ⟨text, htext, hw, checkEnvelope_obj (validateEnvelope_eq_ok hvalid).1⟩

/-- **The glued line.**  The start of an envelope's line after an open line reads as that
envelope exactly when the open line is blank and the whole text was written. -/
theorem readLine_glued (path : String) (data : Bytes) {envelope : Mapping}
    (hfirst : envelope.FirstKey "schema") {text : List Char}
    (hvalid : validateEnvelope roots (some dispatchId) (.obj envelope.1) = .ok text)
    (hseq : seqOf (.obj envelope.1) ∉ seen) {n : ℕ} (hn : 0 < n) :
    readLine roots dispatchId path seen (carrierBreaks.unterminated data ++
        (lineOf (.obj envelope.1)).take n) = .envelope (.obj envelope.1) ↔
      (carrierBreaks.unterminated data).all isLineBlank = true ∧
        (lineOf (.obj envelope.1)).length ≤ n := by
  obtain ⟨value, rest, hfields⟩ := hfirst
  obtain ⟨tail, htail⟩ := lineOf_obj envelope.1
  constructor
  · intro hread
    obtain ⟨glued, hdecode, hloads, -⟩ := readLine_envelope hread
    -- The brace is ASCII, so both parts of the line are encoded texts.
    have hcons : (lineOf (.obj envelope.1)).take n = 123 :: tail.take (n - 1) := by
      rw [htail, List.take_cons hn]
    rw [hcons] at hdecode
    obtain ⟨before, after, rfl, hbefore, hafter⟩ := decode_append_ascii (by decide) hdecode
    have hprefix : encode after ++ (lineOf (.obj envelope.1)).drop n =
        encode (dumps (.obj envelope.1)) := by
      rw [← hafter, ← hcons]
      exact List.take_append_drop _ _
    obtain ⟨missing, hcut⟩ := exists_of_encode_append hprefix
    have hne : after ≠ [] := by
      rintro rfl
      cases hafter
    have hwf := envelope.2
    rw [hfields] at hcut hwf hloads
    obtain ⟨hblank, rfl, -⟩ := loads_junction rfl (by decide) hwf hcut hne hloads
      (fun s heq => by cases heq)
    refine ⟨unterminated_blank hbefore hblank, ?_⟩
    have hdrop : (lineOf (.obj envelope.1)).drop n = [] := by
      rw [← hfields, List.append_nil] at hcut
      rw [hcut] at hprefix
      exact List.append_right_eq_self.mp hprefix
    exact List.drop_eq_nil_iff.mp hdrop
  · rintro ⟨hblank, hn⟩
    rw [List.take_of_length_le hn]
    obtain ⟨before, hbefore, hbefore_blank⟩ := exists_blank_text hblank
    have hdecode : decode (carrierBreaks.unterminated data ++ lineOf (.obj envelope.1)) =
        some (before ++ dumps (.obj envelope.1)) := by
      unfold lineOf
      rw [hbefore, ← encode_append, decode_encode]
    have hnonblank : (carrierBreaks.unterminated data ++ lineOf (.obj envelope.1)).all
        isByteSpace = false := by
      rw [List.all_append, htail]
      simp [isByteSpace]
    unfold readLine
    rw [hnonblank, if_neg Bool.false_ne_true, hdecode]
    simp only
    rw [loads_blank hbefore_blank, loads_dumps envelope.2]
    simp only
    rw [hvalid]
    simp only
    rw [if_neg hseq]

/-! ### Numbers -/

theorem seqOf_lt_admitSeq (providedSeq : Option ℤ) {envelopes : List Value} {e : Value}
    (he : e ∈ envelopes) : seqOf e < admitSeq providedSeq envelopes := by
  have hle : seqOf e ≤ ((envelopes.map seqOf).max?).getD 0 := by
    cases hmax : (envelopes.map seqOf).max? with
    | none =>
      rw [List.max?_eq_none_iff, List.map_eq_nil_iff] at hmax
      rw [hmax] at he
      cases he
    | some m => exact (List.max?_le_iff hmax).mp le_rfl _ (List.mem_map_of_mem he)
  unfold admitSeq
  simp only
  cases providedSeq with
  | none => exact Int.lt_add_one_of_le hle
  | some seq =>
    simp only
    split
    · exact Int.lt_add_one_of_le hle
    · omega

/-! ### A recorded envelope is readable -/

theorem LineRead.length_envelopes (line : LineRead) : line.envelopes.length ≤ 1 := by
  cases line with
  | envelope v => exact le_rfl
  | blank => exact Nat.zero_le _
  | fault reason => exact Nat.zero_le _
  | typeError => exact Nat.zero_le _

theorem readEnvelopesResult_snoc {lines : List Bytes} {line : Bytes}
    (hlines : carrierBreaks.lines data = lines ++ [line])
    {ended : List Value × List CarrierError}
    (hended : readLines roots dispatchId path true 1 [] [] lines = some ended) :
    (∃ read : LineRead, readLine roots dispatchId (path ++ ":" ++ toString (1 + lines.length))
        (ended.1.map seqOf) line = read ∧
      ((readEnvelopesResult roots dispatchId path (some data)).envelopes =
        ended.1 ++ read.envelopes ∨
      (read = .typeError ∧
        (readEnvelopesResult roots dispatchId path (some data)).envelopes = []))) := by
  refine ⟨_, rfl, ?_⟩
  cases hlast : readLines roots dispatchId path true (1 + lines.length) ended.1 ended.2 [line] with
  | none =>
    right
    have htype : readLine roots dispatchId (path ++ ":" ++ toString (1 + lines.length))
        (ended.1.map seqOf) line = .typeError := by
      unfold readLines at hlast
      split at hlast
      · cases hlast
      · cases hlast
      · cases hlast
      · assumption
    refine ⟨htype, ?_⟩
    unfold readEnvelopesResult readEnvelopeRecords
    simp only
    rw [hlines, readLines_append, hended, Option.bind_some]
    simp only
    rw [hlast]
    rfl
  | some last =>
    left
    unfold readEnvelopesResult readEnvelopeRecords
    simp only
    rw [hlines, readLines_append, hended, Option.bind_some]
    simp only
    rw [hlast]
    exact readLines_singleton hlast

theorem readEnvelopesResult_envelopes {existing : CarrierReadResult}
    (h : readEnvelopeRecords roots dispatchId path true (file.getD []) = some existing) :
    (readEnvelopesResult roots dispatchId path file).envelopes = existing.envelopes := by
  cases file with
  | none =>
    cases h
    rfl
  | some data =>
    have hdata : readEnvelopeRecords roots dispatchId path true data = some existing := h
    unfold readEnvelopesResult
    simp only
    rw [hdata]
    rfl

/-- A recorded post adds its envelope at the end exactly when it starts its own line and writes
it whole. -/
theorem post_grown_iff (h : postMessage w args path file = (.ok result, file'))
    (hrecorded : result.recorded = true) :
    (readEnvelopesResult w.roots args.dispatchId path file').envelopes =
        (readEnvelopesResult w.roots args.dispatchId path file).envelopes ++ [result.envelope] ↔
      (carrierBreaks.unterminated (file.getD [])).all isLineBlank = true ∧ w.unwritten ≤ 1 := by
  obtain ⟨existing, envelope, hread, hfirst, henvelope, ⟨text, hvalid⟩, hseq, rfl⟩ :=
    postMessage_recorded h hrecorded
  obtain ⟨ended, hended, hexisting⟩ := readEnvelopeRecords_eq_some hread
  rw [readEnvelopesResult_envelopes hread, henvelope]
  have hne : lineOf (.obj envelope.1) ≠ [] := by
    obtain ⟨tail, htail⟩ := lineOf_obj envelope.1
    rw [htail]
    exact List.cons_ne_nil _ _
  generalize hwritten : (lineOf (.obj envelope.1) ++ [10]).length - w.unwritten = written
  have hlength : (lineOf (.obj envelope.1)).length ≠ 0 :=
    fun hzero => hne (List.length_eq_zero_iff.mp hzero)
  rw [List.length_append, List.length_singleton] at hwritten
  have hwhole : w.unwritten ≤ 1 ↔ (lineOf (.obj envelope.1)).length ≤ written := by
    constructor
    · intro hle
      omega
    · intro hle
      omega
  rw [hwhole]
  rcases Nat.eq_zero_or_pos written with hzero | hpos
  · -- Nothing was written.
    have hsame : (readEnvelopesResult w.roots args.dispatchId path
        (some (file.getD [] ++ (lineOf (.obj envelope.1) ++ [10]).take written))).envelopes =
        existing.envelopes := by
      rw [hzero, List.take_zero, List.append_nil]
      exact readEnvelopesResult_envelopes hread
    rw [hsame, hzero, Nat.le_zero, List.length_eq_zero_iff]
    constructor
    · intro hlonger
      have hlength := congrArg List.length hlonger
      rw [List.length_append, List.length_singleton] at hlength
      omega
    · rintro ⟨-, hnil⟩
      exact absurd hnil hne
  · have hold : ∀ e ∈ ended.1, e ∈ existing.envelopes := by
      intro e he
      rw [hexisting]
      exact List.mem_append_left _ he
    have hnew : seqOf (.obj envelope.1) ∉ ended.1.map seqOf := by
      intro hmem
      obtain ⟨e, he, heq⟩ := List.mem_map.mp hmem
      have hlt := seqOf_lt_admitSeq args.seq (hold e he)
      omega
    obtain ⟨read, hline, hresult⟩ := readEnvelopesResult_snoc
      (lines_appended hpos hne) hended
    have hglued := readLine_glued (path ++ ":" ++
        toString (1 + (carrierBreaks.split (file.getD [])).ended.length))
      (file.getD []) hfirst hvalid hnew hpos
    rw [← hglued, hline]
    constructor
    · intro hgrown
      rcases hresult with hresult | ⟨-, hnone⟩
      · -- There is room for one envelope after the ended lines.
        rw [hresult, hexisting, List.append_assoc, List.append_cancel_left_eq] at hgrown
        obtain ⟨before, hbefore⟩ : ∃ before : List Value, read.envelopes =
            before ++ [.obj envelope.1] := ⟨_, hgrown⟩
        have hshort := read.length_envelopes
        rw [hbefore, List.length_append, List.length_singleton] at hshort
        obtain rfl : before = [] := List.length_eq_zero_iff.mp (by omega)
        rw [List.nil_append] at hbefore
        cases read with
        | envelope v =>
          obtain rfl : v = .obj envelope.1 := (List.cons.inj hbefore).1
          rfl
        | blank => cases hbefore
        | fault reason => cases hbefore
        | typeError => cases hbefore
      · rw [hnone] at hgrown
        simp at hgrown
    · intro hread
      have hblank := (hglued.mp (hline.trans hread)).1
      have hopen : existing.envelopes = ended.1 := by
        rw [hexisting]
        split
        · exact List.append_nil _
        · rw [readLine_blank hblank, List.append_nil]
      rcases hresult with hresult | ⟨htype, -⟩
      · rw [hresult, hopen, hread]
        rfl
      · rw [htype] at hread
        cases hread

/-- **When a recorded envelope is readable.**  A recorded post leaves a carrier that reads as
before with the new envelope at its end, its number the admitted one, if and only if what
stood after the last line end was spaces and tabs only and the write left out the final
newline at most. -/
theorem post_readable_iff {w : PostEnvironment} {args : PostArgs} {path : String}
    {file file' : Option Bytes} {result : PostResult}
    (h : postMessage w args path file = (.ok result, file')) (hrecorded : result.recorded = true) :
    ((readEnvelopesResult w.roots args.dispatchId path file').envelopes =
        (readEnvelopesResult w.roots args.dispatchId path file).envelopes ++ [result.envelope] ∧
      seqOf result.envelope = admitSeq args.seq
        (readEnvelopesResult w.roots args.dispatchId path file).envelopes) ↔
      (carrierBreaks.unterminated (file.getD [])).all isLineBlank = true ∧
        w.unwritten ≤ 1 := by
  obtain ⟨existing, envelope, hread, -, henvelope, -, hseq, -⟩ :=
    postMessage_recorded h hrecorded
  have hadmitted : seqOf result.envelope = admitSeq args.seq
      (readEnvelopesResult w.roots args.dispatchId path file).envelopes := by
    rw [readEnvelopesResult_envelopes hread, henvelope]
    exact hseq
  rw [and_iff_left hadmitted]
  exact post_grown_iff h hrecorded

/-- A notice of the controller `CTL` to `d1`. -/
def noticeArgs : PostArgs where
  dispatchId := "d1"
  msgType := "notice"
  payload := Mapping.empty.set "text" ⟨.str "hello", rfl⟩
  eventId := some "00000000-0000-4000-8000-000000000001"
  eventTs := some "2026-01-02T03:04:05Z"

/-- A call during which nothing fails and the write takes everything. -/
def quietEnvironment : PostEnvironment where
  roots := fun _ => none
  preflight := .ok ()
  redact := id
  freshId := "00000000-0000-4000-8000-000000000002"
  now := "2026-01-02T03:04:05Z"
  controllerLabel := some "CTL"
  ingestionOrder := fun _ => .ok 1
  prepareJournalDelivery := fun _ => .ok ()
  unwritten := 0
  deliver := fun _ => .ok ()

theorem exists_recorded
    (h : ((postMessage w args path file).1.toOption.any fun result => result.recorded) = true) :
    ∃ result file', postMessage w args path file = (.ok result, file') ∧
      result.recorded = true := by
  rcases hpost : postMessage w args path file with ⟨result, file'⟩
  rw [hpost] at h
  cases result with
  | error e => cases h
  | ok result => exact ⟨result, file', rfl, h⟩

/-- The notice posted to no carrier yet. -/
theorem post_readable_iff_first : ∃ result file',
    postMessage quietEnvironment noticeArgs "d1.jsonl" none = (.ok result, file') ∧
      result.recorded = true ∧
      (readEnvelopesResult quietEnvironment.roots "d1" "d1.jsonl" file').envelopes =
        [result.envelope] := by
  have hrecords : ((postMessage quietEnvironment noticeArgs "d1.jsonl" none).1.toOption.any
      fun result => result.recorded) = true := by decide +kernel
  obtain ⟨result, file', hpost, hrecorded⟩ := exists_recorded hrecords
  exact ⟨result, file', hpost, hrecorded,
    ((post_readable_iff hpost hrecorded).mpr ⟨rfl, Nat.zero_le 1⟩).1⟩

/-- The notice posted after a line that a crash cut short is recorded and not readable. -/
theorem post_unreadable : ∃ result file',
    postMessage quietEnvironment noticeArgs "d1.jsonl" (some [123]) = (.ok result, file') ∧
      result.recorded = true ∧
      (readEnvelopesResult quietEnvironment.roots "d1" "d1.jsonl" file').envelopes ≠
        (readEnvelopesResult quietEnvironment.roots "d1" "d1.jsonl" (some [123])).envelopes ++
          [result.envelope] := by
  have hrecords : ((postMessage quietEnvironment noticeArgs "d1.jsonl" (some [123])).1.toOption.any
      fun result => result.recorded) = true := by decide +kernel
  obtain ⟨result, file', hpost, hrecorded⟩ := exists_recorded hrecords
  refine ⟨result, file', hpost, hrecorded, ?_⟩
  intro hgrown
  have hblank := ((post_grown_iff hpost hrecorded).mp hgrown).1
  exact absurd hblank (by decide)

end GoalFlight.Messages
