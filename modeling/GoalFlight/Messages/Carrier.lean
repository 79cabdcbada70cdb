import GoalFlight.Journal.Schema

/-!
# Carrier streams

Every dispatch has a carrier file, one JSON envelope a line.  This module has the files
as they are read back: the readable envelopes, in file order.  An envelope's number is
chosen from the envelopes that are there, under the file's lock; an envelope is
identified by its origin node and id, and posting it again gives the number it has.
-/

namespace GoalFlight

/-- An envelope, without the content no reader of the journal looks at. -/
structure Envelope where
  streamId : String
  seq : ℕ
  event : EventId
  eventType : String
  createdAt : Timestamp

/-- The readable envelopes of all carrier files. -/
abbrev Carriers := List Envelope

/-- `inbox_path`, below the messages directory. -/
def inboxPath (stream : String) : String := stream ++ ".jsonl"

/-- The envelopes of one stream. -/
def Carriers.stream (c : Carriers) (stream : String) : List Envelope :=
  c.filter fun e => e.streamId = stream

/-- The highest number in use: `max(…, default=0)`. -/
def highWater (envelopes : List Envelope) : ℕ := (envelopes.map Envelope.seq).max?.getD 0

/-- `_admit_stream_seq`. -/
def admitStreamSeq (providedSeq : Option ℕ) (envelopes : List Envelope) : ℕ :=
  match providedSeq with
  | none => highWater envelopes + 1
  | some seq => if seq ≤ highWater envelopes then highWater envelopes + 1 else seq

theorem highWater_lt_admitStreamSeq (providedSeq : Option ℕ) (envelopes : List Envelope) :
    highWater envelopes < admitStreamSeq providedSeq envelopes := by
  unfold admitStreamSeq
  cases providedSeq with
  | none => exact Nat.lt_succ_self _
  | some seq =>
    simp only
    split
    · exact Nat.lt_succ_self _
    · omega

/-- The envelope with an identity, on one stream. -/
def Carriers.identity? (c : Carriers) (stream : String) (event : EventId) : Option Envelope :=
  (c.stream stream).find? fun e => e.event = event

/-- The carrier part of posting an outbox event: the number the event has, or an appended
envelope with a new one.  Nothing happens when the identity is taken by other content. -/
def Carriers.append? (c : Carriers) (stream : String) (event : EventId) (eventType : String)
    (createdAt : Timestamp) : Option (ℕ × Carriers) :=
  match c.identity? stream event with
  | some e => if e.eventType = eventType ∧ e.createdAt = createdAt then some (e.seq, c) else none
  | none =>
    let seq := admitStreamSeq none (c.stream stream)
    some (seq, c ++ [⟨stream, seq, event, eventType, createdAt⟩])

end GoalFlight
