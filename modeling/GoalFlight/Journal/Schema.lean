import GoalFlight.Library.Table

/-!
# The state journal: rows and tables

`scripts/goalflight_journal.py` keeps the state of one project in a SQLite
database.  This file has the tables the controller, delivery and attempt
operations read and write, with their primary keys, unique indexes and `CHECK`
constraints.

* A primary key or unique index is part of the table's `compat` relation, so a
  table that breaks it cannot be built and an `INSERT` or `UPDATE` that would
  break it is refused.
* A `CHECK` that ties a state column to nullable columns is part of the row type:
  a lease is `ACTIVE` exactly when it carries no `LeaseEnd`, a coverage row is
  `ARMED` exactly when it carries no exit, an attempt has terminal columns exactly
  when it is `TERMINAL` or `ABANDONED`.

One journal holds one project (`resolve_journal_path`), so the `project_root`
column, the same in every row, is left out.  `TEXT` timestamps stay text: the
source compares them as text.
-/

namespace GoalFlight

open Relational

/-- A `TEXT` column holding `utc_now()` or a caller's timestamp. -/
abbrev Timestamp := String

/-- A controller label (an identity token, hence never `*`). -/
abbrev Label := String

/-! ## Controller leases -/

/-- `LEASE_ENDED_STATES`. -/
inductive EndedState
  | superseded
  | expired
  | retired
deriving DecidableEq

/-- The columns a lease row has exactly when its state is not `ACTIVE`. -/
structure LeaseEnd where
  state : EndedState
  endedAt : Timestamp
  endedReason : String
deriving DecidableEq

/-- The keys of a lease principal that the journal reads. -/
structure Principal where
  pid : Option ℕ
  startToken : Option String
  principalId : Option String
deriving DecidableEq

/-- A row of `controller_leases`. -/
structure ControllerLease where
  label : Label
  generation : ℕ
  nonce : String
  principal : Principal
  claimedAt : Timestamp
  renewedAt : Timestamp
  renewDeadlineAt : Timestamp
  ended : Option LeaseEnd
deriving DecidableEq

/-- `state = 'ACTIVE'`. -/
abbrev ControllerLease.Active (l : ControllerLease) : Prop := l.ended = none

/-- `PRIMARY KEY (label, generation)`, `UNIQUE (label, nonce)` and the partial
unique index on `label` over the `ACTIVE` rows. -/
structure ControllerLease.Compat (a b : ControllerLease) : Prop where
  key : (a.label, a.generation) ≠ (b.label, b.generation)
  nonce : (a.label, a.nonce) ≠ (b.label, b.nonce)
  oneActive : ¬ (a.Active ∧ b.Active ∧ a.label = b.label)

instance : DecidableRel ControllerLease.Compat := fun _ _ =>
  decidable_of_iff (_ ∧ _ ∧ _) ⟨fun h => ⟨h.1, h.2.1, h.2.2⟩, fun h => ⟨h.1, h.2, h.3⟩⟩

/-- The table `controller_leases`. -/
abbrev LeaseTable := Table ControllerLease ControllerLease.Compat

/-! ## Cursors -/

/-- A row of `controller_cursors`. -/
structure ControllerCursor where
  label : Label
  registryGeneration : ℕ
  cursorVersion : ℕ
  backlogPending : Bool
  updatedAt : Timestamp
  advancedAt : Option Timestamp
  advancedBy : Option String

/-- A row of `controller_stream_cursors`. -/
structure StreamCursor where
  label : Label
  streamId : String
  position : ℕ
  updatedAt : Timestamp

/-- `PRIMARY KEY (label, stream_id)`. -/
abbrev StreamCursor.key (c : StreamCursor) : Label × String := (c.label, c.streamId)

/-- A row of `controller_stream_rewinds`. -/
structure StreamRewind where
  label : Label
  streamId : String
  rewindVersion : ℕ

/-- `PRIMARY KEY (label, stream_id)`. -/
abbrev StreamRewind.key (c : StreamRewind) : Label × String := (c.label, c.streamId)

/-! ## Listener coverage -/

/-- The columns a coverage row has exactly when its state is `EXITED`. -/
structure CoverageExit where
  exitedAt : Timestamp
  exitReason : String

/-- A row of `listener_coverage`. -/
structure ListenerCoverage where
  coverageId : String
  label : Label
  leaseGeneration : ℕ
  leaseNonce : String
  pid : ℕ
  startToken : String
  parentPid : ℕ
  armedAt : Timestamp
  exited : Option CoverageExit

/-- `state = 'ARMED'`. -/
abbrev ListenerCoverage.Armed (c : ListenerCoverage) : Prop := c.exited = none

/-- `PRIMARY KEY (coverage_id)` and the partial unique index on
`(label, lease_generation)` over the `ARMED` rows. -/
structure ListenerCoverage.Compat (a b : ListenerCoverage) : Prop where
  key : a.coverageId ≠ b.coverageId
  oneArmed : ¬ (a.Armed ∧ b.Armed ∧
    (a.label, a.leaseGeneration) = (b.label, b.leaseGeneration))

instance : DecidableRel ListenerCoverage.Compat := fun _ _ =>
  decidable_of_iff (_ ∧ _) ⟨fun h => ⟨h.1, h.2⟩, fun h => ⟨h.1, h.2⟩⟩

/-- The table `listener_coverage`. -/
abbrev CoverageTable := Table ListenerCoverage ListenerCoverage.Compat

/-! ## Delivery events -/

/-- A `recipient_label`: the durable wildcard `*` or a controller label. -/
inductive Recipient
  | wildcard
  | label (l : Label)
deriving DecidableEq

inductive WakeClass
  | waking
  | quiet
deriving DecidableEq

/-- The identity of an event across its delivery rows. -/
structure EventId where
  originNode : String
  eventUuid : String
deriving DecidableEq

/-- A row of `delivery_events`, with its SQLite row id. -/
structure DeliveryEvent where
  rowid : ℕ
  recipient : Recipient
  event : EventId
  streamId : String
  streamSeq : ℕ
  carrierPath : String
  eventType : String
  wakeClass : WakeClass
  createdAt : Timestamp
  projectedAt : Option Timestamp
  withdrawnAt : Option Timestamp
deriving DecidableEq

namespace DeliveryEvent

/-- `withdrawn_at IS NULL`. -/
abbrev Live (r : DeliveryEvent) : Prop := r.withdrawnAt = none

/-- `projected_at IS NOT NULL`. -/
abbrev Projected (r : DeliveryEvent) : Prop := r.projectedAt ≠ none

/-- The row of an attention item, which its resolution withdraws. -/
abbrev Attention (r : DeliveryEvent) : Prop := r.eventType = "controller_attention"

/-- `(stream_id, stream_seq)`. -/
abbrev position (r : DeliveryEvent) : String × ℕ := (r.streamId, r.streamSeq)

/-- `recipient_label IN (label, '*')`. -/
abbrev AddressedTo (r : DeliveryEvent) (label : Label) : Prop :=
  r.recipient = .label label ∨ r.recipient = .wildcard

/-- Ascending row ids, `PRIMARY KEY (recipient_label, origin_node, event_uuid)`
over live and withdrawn rows alike, and the unique index on
`(recipient_label, stream_id, stream_seq)` over the live rows. -/
structure Compat (a b : DeliveryEvent) : Prop where
  rowid : a.rowid < b.rowid
  key : (a.recipient, a.event) ≠ (b.recipient, b.event)
  livePosition : ¬ (a.Live ∧ b.Live ∧ (a.recipient, a.position) = (b.recipient, b.position))

instance : DecidableRel Compat := fun _ _ =>
  decidable_of_iff (_ ∧ _ ∧ _) ⟨fun h => ⟨h.1, h.2.1, h.2.2⟩, fun h => ⟨h.1, h.2, h.3⟩⟩

end DeliveryEvent

/-- The table `delivery_events`. -/
abbrev DeliveryTable := Table DeliveryEvent DeliveryEvent.Compat

/-! ## Attention items -/

/-- The side an orphaned-work item was opened from. -/
inductive TriggerSide
  | listener
  | horizon

/-- A row of `attention_items`; its `item_type` is always
`orphaned_controller_work`. -/
structure AttentionItem where
  itemId : String
  sourceLabel : Label
  sourceGeneration : ℕ
  triggerSide : TriggerSide
  reason : String
  createdAt : Timestamp
  resolvedAt : Option Timestamp

/-- `state = 'OPEN'`. -/
abbrev AttentionItem.Open (a : AttentionItem) : Prop := a.resolvedAt = none

/-- `PRIMARY KEY (item_id)` and `UNIQUE (source_label, source_generation,
item_type)`. -/
structure AttentionItem.Compat (a b : AttentionItem) : Prop where
  key : a.itemId ≠ b.itemId
  source : (a.sourceLabel, a.sourceGeneration) ≠ (b.sourceLabel, b.sourceGeneration)

instance : DecidableRel AttentionItem.Compat := fun _ _ =>
  decidable_of_iff (_ ∧ _) ⟨fun h => ⟨h.1, h.2⟩, fun h => ⟨h.1, h.2⟩⟩

/-- A row of `system_attention_items`; of its payload only `dispatch_id` is
read back. -/
structure SystemAttentionItem where
  itemId : String
  itemType : String
  reason : String
  dispatchId : String
  createdAt : Timestamp
  resolvedAt : Option Timestamp

/-! ## Dispatch attempts, transitions and the terminal outbox -/

/-- `ATTEMPT_LIVE_STATES`. -/
inductive LiveState
  | prepared
  | starting
  | running
deriving DecidableEq

/-- `ATTEMPT_FINAL_STATES`. -/
inductive FinalState
  | terminal
  | abandoned
deriving DecidableEq

/-- The values of the column `lifecycle_state`. -/
inductive AttemptState
  | live (s : LiveState)
  | final (s : FinalState)
deriving DecidableEq

/-- The columns an attempt has exactly when its lifecycle state is final. -/
structure TerminalColumns where
  state : FinalState
  transitionId : String
  terminalState : String
  outcome : String
  terminalAt : Timestamp
deriving DecidableEq

/-- `lifecycle_state` with the terminal columns its `CHECK` ties to it. -/
inductive Lifecycle
  | live (s : LiveState)
  | final (t : TerminalColumns)
deriving DecidableEq

/-- The column `lifecycle_state` itself. -/
def Lifecycle.state : Lifecycle → AttemptState
  | .live s => .live s
  | .final t => .final t.state

/-- The terminal columns, when the attempt has them. -/
def Lifecycle.terminal? : Lifecycle → Option TerminalColumns
  | .live _ => none
  | .final t => some t

/-- A row of `dispatch_attempts`. -/
structure DispatchAttempt where
  attemptId : String
  dispatchId : String
  lifecycle : Lifecycle
  launchEpoch : ℕ
  launchToken : String
  workerInstance : Option String
  preparedAt : Timestamp
  stateUpdatedAt : Timestamp
  startDeadlineAt : Option Timestamp
  ownerControllerLabel : Option Label
  ownerSessionDigest : Option String
  effectiveAccount : Option String
  engine : Option String

/-- The transition an attempt's terminal columns name. -/
def DispatchAttempt.terminalTransitionId (a : DispatchAttempt) : Option String :=
  a.lifecycle.terminal?.map TerminalColumns.transitionId

/-- `PRIMARY KEY (attempt_id)`, `UNIQUE (dispatch_id)` and
`UNIQUE (terminal_transition_id)`. -/
structure DispatchAttempt.Compat (a b : DispatchAttempt) : Prop where
  key : a.attemptId ≠ b.attemptId
  dispatch : a.dispatchId ≠ b.dispatchId
  transition : a.terminalTransitionId = none ∨ a.terminalTransitionId ≠ b.terminalTransitionId

instance : DecidableRel DispatchAttempt.Compat := fun _ _ =>
  decidable_of_iff (_ ∧ _ ∧ _) ⟨fun h => ⟨h.1, h.2.1, h.2.2⟩, fun h => ⟨h.1, h.2, h.3⟩⟩

/-- A row of `dispatch_transitions`. -/
structure DispatchTransition where
  attemptId : String
  transitionId : String
  fromState : AttemptState
  toState : FinalState
  terminalState : String
  observation : String
  createdAt : Timestamp

/-- `UNIQUE (transition_id)`, which implies the primary key
`(attempt_id, transition_id)`. -/
abbrev DispatchTransition.key (t : DispatchTransition) : String := t.transitionId

/-- The payload of a terminal event, without the headline computed from it. -/
structure TerminalPayload where
  attemptId : String
  transitionId : String
  dispatchId : String
  terminalState : String
  complete : Bool
  observation : String
deriving DecidableEq

/-- A row of `terminal_outbox`. -/
structure TerminalOutboxRow where
  attemptId : String
  transitionId : String
  event : EventId
  recipient : String
  eventType : String
  payload : TerminalPayload
  createdAt : Timestamp
  projectedAt : Option Timestamp
  projectionAttempts : ℕ
  projectionError : Option String
  projectionRetryAt : Option Timestamp
  projectionQuarantinedAt : Option Timestamp
deriving DecidableEq

/-- `PRIMARY KEY (attempt_id, transition_id)`. -/
abbrev TerminalOutboxRow.key (o : TerminalOutboxRow) : String × String :=
  (o.attemptId, o.transitionId)

/-- The primary key and `UNIQUE (origin_node, event_uuid, recipient)`. -/
structure TerminalOutboxRow.Compat (a b : TerminalOutboxRow) : Prop where
  key : a.key ≠ b.key
  event : (a.event, a.recipient) ≠ (b.event, b.recipient)

instance : DecidableRel TerminalOutboxRow.Compat := fun _ _ =>
  decidable_of_iff (_ ∧ _) ⟨fun h => ⟨h.1, h.2⟩, fun h => ⟨h.1, h.2⟩⟩

/-- The table `dispatch_attempts`. -/
abbrev AttemptTable := Table DispatchAttempt DispatchAttempt.Compat

/-- The table `terminal_outbox`. -/
abbrev OutboxTable := Table TerminalOutboxRow TerminalOutboxRow.Compat

/-! ## The journal -/

/-- The state journal of one project. -/
structure Journal where
  leases : LeaseTable
  cursors : KeyedTable ControllerCursor.label
  streamCursors : KeyedTable StreamCursor.key
  streamRewinds : KeyedTable StreamRewind.key
  coverage : CoverageTable
  delivery : DeliveryTable
  attention : Table AttentionItem AttentionItem.Compat
  systemAttention : KeyedTable SystemAttentionItem.itemId
  attempts : AttemptTable
  transitions : KeyedTable DispatchTransition.key
  outbox : OutboxTable

/-- A journal whose tables have just been created. -/
def Journal.fresh : Journal where
  leases := .empty
  cursors := .empty
  streamCursors := .empty
  streamRewinds := .empty
  coverage := .empty
  delivery := .empty
  attention := .empty
  systemAttention := .empty
  attempts := .empty
  transitions := .empty
  outbox := .empty

/-- How a journal transaction ends without committing.  Every abort rolls the
transaction back, so the journal it leaves is the one it found. -/
inductive Abort
  /-- `ValueError` raised while the arguments are checked, before any SQL. -/
  | valueError (reason : String)
  /-- `CASMismatch`, returned as `WriteDisposition.CAS_LOST`. -/
  | casMismatch (reason : String)
  /-- `JournalIntegrityError`. -/
  | journalIntegrity (reason : String)
  /-- `sqlite3.IntegrityError`: a constraint of the named table refused a row. -/
  | constraint (table : String)
deriving DecidableEq

/-- The outcome of a journal transaction: an abort, or its value and the journal
it commits. -/
abbrev Tx (α : Type) := Except Abort (α × Journal)

/-- The rest of a transaction: it runs on the value and journal of the first part. -/
def Tx.andThen {α β : Type} (x : Tx α) (f : α → Journal → Tx β) : Tx β :=
  Except.bind x fun r => f r.1 r.2

theorem Tx.andThen_eq_ok {α β : Type} {x : Tx α} {f : α → Journal → Tx β}
    {r : β × Journal} :
    x.andThen f = .ok r ↔ ∃ a j, x = .ok (a, j) ∧ f a j = .ok r := by
  cases x with
  | error e => simp [Tx.andThen, Except.bind]
  | ok p =>
    obtain ⟨a, j⟩ := p
    simp [Tx.andThen, Except.bind]

/-- The stream position a label has seen through: `COALESCE(position, 0)`. -/
def Journal.position (j : Journal) (label : Label) (stream : String) : ℕ :=
  ((j.streamCursors.get? (label, stream)).map StreamCursor.position).getD 0

/-- The label's `ACTIVE` lease. -/
def Journal.activeLease (j : Journal) (label : Label) : Option ControllerLease :=
  j.leases.find? fun l => l.label = label ∧ l.Active

theorem Journal.activeLease_eq_some {j : Journal} {label : Label} {l : ControllerLease} :
    j.activeLease label = some l ↔ l ∈ j.leases ∧ l.label = label ∧ l.Active := by
  constructor
  · intro h
    simpa using Table.find?_eq_some h
  · rintro ⟨hl, rfl, hactive⟩
    refine Table.find?_eq_of_unique hl (by simpa using hactive) fun b hb hp => ?_
    have hp' : b.label = l.label ∧ b.Active := by simpa using hp
    exact Table.eq_of_not_compat hb hl (fun h => h.oneActive ⟨hp'.2, hactive, hp'.1⟩)
      (fun h => h.oneActive ⟨hactive, hp'.2, hp'.1.symm⟩)

theorem Journal.activeLease_eq_none {j : Journal} {label : Label} :
    j.activeLease label = none ↔ ∀ l ∈ j.leases, l.label = label → ¬ l.Active := by
  simp [Journal.activeLease, Table.find?_eq_none]

end GoalFlight
