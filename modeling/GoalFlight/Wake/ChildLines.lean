import GoalFlight.Library.Join
import GoalFlight.Tasks.Records
import GoalFlight.Watch.Markers

/-!
# Wake: the lines of a child

The wake supervisor reads lines from its children.  Mail comes in three forms: the headline of a
doorbell, `[type] stream seq=n — text`; the event record of a stream child; and the report of what
was pending when a child armed, with many items.  Everything else carries no mail.
-/

namespace GoalFlight.Wake

open Json
open Watch (Line strip)
open Messages (isStreamToken)
open GoalFlight.Tasks (strOrEmpty)

variable {row : Value}

/-! ### Types of events -/

/-- `_ESCALATION_EVENT_TYPES`. -/
def escalationEventTypes : List String := ["blocked", "user_confirm", "user_need"]

/-- `_PASSTHROUGH_EVENT_TYPES`. -/
def passthroughEventTypes : List String :=
  ["listener-dead", "listener-fault", "listener-exit", "watchdog-dead", "listener-degraded",
    "listener-recovered"]

/-! ### Records and rows -/

/-- `text.partition(separator)`; the part behind a separator that is there. -/
def partition (separator : Line) : Line → Line × Option Line
  | [] => ([], none)
  | c :: rest =>
    if separator.isPrefixOf (c :: rest) then ([], some ((c :: rest).drop separator.length))
    else
      let (before, behind) := partition separator rest
      (c :: before, behind)

/-- `_parse_child_record`. -/
def parseChildRecord (line : Line) : Option Mapping :=
  let text := strip line
  if text.head? = some '\x7b' then (loadsDocument text).bind mapping? else none

/-- The row of a headline. -/
def headlineRow (text : Line) : Option Mapping :=
  if text.head? ≠ some '[' then none
  else
    match partition "] ".toList text.tail with
    | (_, none) => none
    | (eventType, some receipt) =>
      match partition " seq=".toList receipt with
      | (_, none) => none
      | (stream, some tail) =>
        let seq := (partition " — ".toList tail).1
        if stream ≠ [] ∧ seq ≠ [] ∧ seq.all Char.isDigit then
          some (Mapping.empty.set "stream_id" ⟨.str (String.ofList stream), rfl⟩
            |>.set "stream_seq" ⟨.int (Value.digitsValue seq), rfl⟩
            |>.set "type" ⟨.str (String.ofList eventType), rfl⟩)
        else none

/-- `record.get(key)`. -/
def recordGet (record : Mapping) (key : String) : Value := (record.field key).1

/-- The items of a record. -/
def recordItems (record : Mapping) : List Value :=
  match recordGet record "items" with
  | .arr items => items
  | _ => []

/-- **`_child_mail_rows`.** -/
def childMailRows (line : Line) : List Value :=
  match parseChildRecord line with
  | none => (headlineRow (strip line)).toList.map fun row => .obj row.1
  | some record =>
    if recordGet record "kind" = .str "event" then
      let payload := recordGet record "payload"
      if payload.isDict then [payload] else []
    else if recordGet record "kind" = .str "pending-at-arm" then recordItems record
    else []

/-- `str(row.get("event_type") or row.get("type") or "")`. -/
def eventType (row : Value) : String := strOrEmpty ((row.get "event_type").orElse (row.get "type"))

/-- `_backlog_capable_row`. -/
def backlogCapableRow (row : Value) : Bool :=
  row.isDict && eventType row ∉ passthroughEventTypes

/-- `_is_backlog_capable_line`. -/
def isBacklogCapableLine (line : Line) : Bool :=
  let rows := childMailRows line
  !rows.isEmpty && rows.all backlogCapableRow

/-! ### Identities -/

/-- Where an envelope is: its stream, its position there and, for an escalation, its type. -/
structure Place where
  stream : String
  seq : ℕ
  escalation : Option String
deriving DecidableEq

variable {place : Place}

/-- An identity as it is written. -/
def Place.text (place : Place) : String :=
  "envelope:" ++ place.stream ++ ":" ++ toString place.seq ++
    (match place.escalation with
      | none => ""
      | some escalation => ":" ++ escalation)

/-- `row.get("stream_id") or row.get("dispatch_id")`. -/
def rowStream (row : Value) : Value := (row.get "stream_id").orElse (row.get "dispatch_id")

/-- The place of a row, if it tells one. -/
def envelopePlace (row : Value) : Option Place :=
  match rowStream row, row.get "stream_seq" with
  | .str stream, .int seq =>
    if stream ≠ "None" ∧ isStreamToken stream ∧ 1 ≤ seq then
      some ⟨stream, seq.toNat, if eventType row ∈ escalationEventTypes then some (eventType row)
        else none⟩
    else none
  | _, _ => none

/-- **`_envelope_identity`.** -/
def envelopeIdentity (row : Value) : Option String := (envelopePlace row).map Place.text

/-- `_backlog_line_identity`. -/
def backlogLineIdentity (line : Line) : String :=
  let rows := childMailRows line
  let identity := match rows with
    | [row] => envelopeIdentity row
    | _ => none
  identity.getD <|
    match parseChildRecord line with
    | some record =>
      let given := strOrEmpty (recordGet record "kind")
      let kind := if given = "" then "record" else given
      match recordGet record "cursor_version" with
      | .int version =>
        if 0 ≤ version then "snapshot:" ++ kind ++ ":" ++ toString version
        else kind ++ ":" ++ String.ofList (strip line)
      | _ => kind ++ ":" ++ String.ofList (strip line)
    | none => "line:" ++ String.ofList (strip line)

/-! ### Control records -/

/-- `_own_stream_record`, of a child of some kind. -/
def ownStreamRecord (childKind : String) (line : Line) (kind : String) : Option Mapping :=
  if childKind = "stream" then
    (parseChildRecord line).filter fun record =>
      strOrEmpty (recordGet record "kind") = kind ∧ (recordGet record "payload").isDict
  else none

/-! ### What identities tell -/

theorem escalation_of_envelopePlace (h : envelopePlace row = some place) :
    ∀ escalation ∈ place.escalation, escalation ∈ escalationEventTypes := by
  unfold envelopePlace at h
  split at h
  · split at h
    · cases h
      intro escalation hescalation
      by_cases htype : eventType row ∈ escalationEventTypes
      · simp only [if_pos htype, Option.mem_def, Option.some.injEq] at hescalation
        rwa [← hescalation]
      · simp only [if_neg htype] at hescalation
        cases hescalation
    · cases h
  · cases h

theorem notMem_escalation : ∀ escalation ∈ escalationEventTypes, ':' ∉ escalation.toList := by
  decide

theorem notMem_seq (seq : ℕ) : ':' ∉ (toString seq).toList :=
  Joined.notMem_toList_repr rfl seq

theorem toList_seq_ne (seq : ℕ) : ∀ escalation ∈ escalationEventTypes,
    (toString seq).toList ≠ escalation.toList := by
  have hletters : ∀ escalation ∈ escalationEventTypes,
      ∃ c ∈ escalation.toList, c.isDigit = false := by
    decide
  intro escalation hescalation heq
  obtain ⟨c, hc, hdigit⟩ := hletters escalation hescalation
  rw [← heq] at hc
  exact Joined.notMem_toList_repr hdigit seq hc

/-- The text of a place up to its position. -/
def Place.lead (place : Place) : List Char :=
  "envelope:".toList ++ place.stream.toList ++ ':' :: (toString place.seq).toList

theorem Place.toList_text_of_none (h : place.escalation = none) :
    place.text.toList = place.lead := by
  unfold Place.text Place.lead
  rw [h]
  simp

theorem Place.toList_text_of_some {escalation : String}
    (h : place.escalation = some escalation) :
    place.text.toList = place.lead ++ ':' :: escalation.toList := by
  unfold Place.text Place.lead
  rw [h]
  simp

theorem Place.lead_inj {a b : Place} (h : a.lead = b.lead) : a.stream = b.stream ∧ a.seq = b.seq := by
  unfold Place.lead at h
  obtain ⟨hstream, hseq⟩ :=
    Joined.append_cons_injective_last (notMem_seq a.seq) (notMem_seq b.seq) h
  exact ⟨String.toList_inj.mp (List.append_cancel_left hstream),
    Nat.repr_injective (String.toList_inj.mp hseq)⟩

/-- **An identity tells the place**: two rows have one identity only where they have one stream, one
position and, if one of them is an escalation, one type. -/
theorem envelopePlace_eq_of_identity {row' : Value} {identity : String}
    (h : envelopeIdentity row = some identity) (h' : envelopeIdentity row' = some identity) :
    envelopePlace row = envelopePlace row' := by
  obtain ⟨a, ha, hidentity⟩ := Option.map_eq_some_iff.mp h
  obtain ⟨b, hb, hidentity'⟩ := Option.map_eq_some_iff.mp h'
  have htext : a.text.toList = b.text.toList := by rw [hidentity, hidentity']
  rw [ha, hb]
  have hescalation := escalation_of_envelopePlace ha
  have hescalation' := escalation_of_envelopePlace hb
  have hwhole (hlead : a.lead = b.lead) (heq : a.escalation = b.escalation) : some a = some b := by
    obtain ⟨hstream, hseq⟩ := Place.lead_inj hlead
    cases a
    cases b
    simp only at hstream hseq heq
    rw [hstream, hseq, heq]
  -- a position is no type, so that both have one or none has
  cases hea : a.escalation with
  | none =>
    rw [Place.toList_text_of_none hea] at htext
    cases heb : b.escalation with
    | none =>
      rw [Place.toList_text_of_none heb] at htext
      exact hwhole htext (by rw [hea, heb])
    | some escalation =>
      rw [Place.toList_text_of_some heb] at htext
      have hmem := hescalation' escalation heb
      obtain ⟨-, hseq⟩ :=
        Joined.append_cons_injective_last (notMem_seq a.seq) (notMem_escalation _ hmem) htext
      exact absurd hseq (toList_seq_ne a.seq _ hmem)
  | some escalation =>
    have hmem := hescalation escalation hea
    rw [Place.toList_text_of_some hea] at htext
    cases heb : b.escalation with
    | none =>
      rw [Place.toList_text_of_none heb] at htext
      obtain ⟨-, hseq⟩ :=
        Joined.append_cons_injective_last (notMem_escalation _ hmem) (notMem_seq b.seq) htext
      exact absurd hseq.symm (toList_seq_ne b.seq _ hmem)
    | some escalation' =>
      rw [Place.toList_text_of_some heb] at htext
      obtain ⟨hlead, htype⟩ := Joined.append_cons_injective_last (notMem_escalation _ hmem)
        (notMem_escalation _ (hescalation' escalation' heb)) htext
      exact hwhole hlead (by rw [hea, heb, String.toList_inj.mp htype])

theorem rowStream_of_envelopePlace (h : envelopePlace row = some place) :
    rowStream row = .str place.stream := by
  unfold envelopePlace at h
  split at h
  · rename_i stream seq hstream hseq
    split at h
    · cases h
      exact hstream
    · cases h
  · cases h

theorem childMailRows_of_ownStreamRecord {childKind kind : String} {line : Line} {record : Mapping}
    (h : ownStreamRecord childKind line kind = some record) (hevent : kind ≠ "event")
    (hreport : kind ≠ "pending-at-arm") : childMailRows line = [] := by
  unfold ownStreamRecord at h
  split at h
  · obtain ⟨hparse, hkind⟩ := Option.filter_eq_some_iff.mp h
    have hkind' : strOrEmpty (recordGet record "kind") = kind := by
      simp only [Bool.decide_and, Bool.and_eq_true, decide_eq_true_eq] at hkind
      exact hkind.1
    unfold childMailRows
    rw [hparse]
    simp only
    rw [if_neg, if_neg]
    · intro hread
      rw [hread] at hkind'
      exact hreport hkind'.symm
    · intro hread
      rw [hread] at hkind'
      exact hevent hkind'.symm
  · cases h

end GoalFlight.Wake
