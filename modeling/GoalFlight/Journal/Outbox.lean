import GoalFlight.Journal.Attempt

/-!
# The terminal outbox and system attention

The projector reads pending outbox rows, delivers them and marks them projected; a
failed pass counts an attempt and, after `OUTBOX_MAX_PROJECTION_ATTEMPTS`, quarantines
the row and raises a system attention item.  System attention items are delivered to
the wildcard on the `attention` stream.

Their ids are `uuid5` digests of a name; as for the snapshot tokens, the digest is
taken to be the name.
-/

namespace GoalFlight

open Relational

variable {dispatchId itemType : String} {j j' : Journal} {now : Timestamp}
  {row : TerminalOutboxRow}

/-! ### Projection state of an outbox row -/

/-- A row `pending_outbox` may hand to a pass, whatever its limit and order. -/
abbrev TerminalOutboxRow.Pending (o : TerminalOutboxRow) : Prop :=
  o.projectedAt = none ∧ o.projectionQuarantinedAt = none

/-- `UPDATE terminal_outbox SET … WHERE p`: the projection columns only. -/
def OutboxTable.modifyWhere (t : OutboxTable) (p : TerminalOutboxRow → Prop)
    [DecidablePred p] (projectedAt : TerminalOutboxRow → Option Timestamp)
    (attempts : ℕ) (error : Option String) (retryAt quarantinedAt : Option Timestamp) :
    OutboxTable :=
  t.update
    (fun o =>
      if p o then
        { o with
          projectedAt := projectedAt o
          projectionAttempts := attempts
          projectionError := error
          projectionRetryAt := retryAt
          projectionQuarantinedAt := quarantinedAt }
      else o)
    (by
      rintro a b ⟨hkey, hevent⟩
      constructor
      · split <;> split <;> exact hkey
      · split <;> split <;> exact hevent)

theorem exists_mem_modifyWhere {t : OutboxTable} {p : TerminalOutboxRow → Prop}
    [DecidablePred p] {projectedAt : TerminalOutboxRow → Option Timestamp} {attempts : ℕ}
    {error : Option String} {retryAt quarantinedAt : Option Timestamp}
    {o : TerminalOutboxRow} (ho : o ∈ t) :
    ∃ o' ∈ t.modifyWhere p projectedAt attempts error retryAt quarantinedAt,
      o'.key = o.key ∧ o'.event = o.event := by
  refine ⟨_, Table.apply_mem rfl ho, ?_⟩
  split <;> exact ⟨rfl, rfl⟩

theorem exists_of_mem_modifyWhere {t : OutboxTable} {p : TerminalOutboxRow → Prop}
    [DecidablePred p] {projectedAt : TerminalOutboxRow → Option Timestamp} {attempts : ℕ}
    {error : Option String} {retryAt quarantinedAt : Option Timestamp}
    {o' : TerminalOutboxRow}
    (ho : o' ∈ t.modifyWhere p projectedAt attempts error retryAt quarantinedAt) :
    ∃ o ∈ t, o'.event = o.event ∧
      ((p o ∧ o'.projectedAt = projectedAt o) ∨ o'.projectedAt = o.projectedAt) := by
  obtain ⟨o, hmem, rfl⟩ := Table.exists_of_mem ho rfl
  refine ⟨o, hmem, ?_⟩
  split
  · exact ⟨rfl, .inl ⟨‹_›, rfl⟩⟩
  · exact ⟨rfl, .inr rfl⟩

/-- The last transaction of a pass: the outbox row is marked projected. -/
def Journal.markOutboxProjected (j : Journal) (row : TerminalOutboxRow) (now : Timestamp) :
    Tx Unit :=
  match j.outbox.find? fun o => o.key = row.key with
  | none => .error (.casMismatch "affected-row predicate lost")
  | some _ =>
    .ok ((), { j with
      outbox := j.outbox.modifyWhere (fun o => o.key = row.key) (fun _ => some now)
        (row.projectionAttempts + 1) none none none })

/-! ### System attention -/

/-- `INSERT OR IGNORE INTO system_attention_items`, and a quiet event for the wildcard
on the `attention` stream. -/
def Journal.raiseSystemAttention (j : Journal) (item : SystemAttentionItem)
    (carrierPath : String) (now : Timestamp) : Journal :=
  let j := { j with systemAttention := (j.systemAttention.insert? item).getD j.systemAttention }
  let row := attentionRow j.delivery.nextRowid .wildcard item.itemId
    (j.nextAttentionSeq .wildcard) carrierPath now
  match j.delivery.insert? row with
  | none => j
  | some delivery =>
    let j := { j with delivery := delivery }
    { j with cursors := j.invalidateDeliveryCursorSnapshots .wildcard now none }

/-- `record_system_attention`, for a payload that names a dispatch. -/
def Journal.recordSystemAttention (j : Journal) (itemType reason dedupeNamespace
    dedupeKey dispatchId : String) (now : Timestamp) : Tx String :=
  if dedupeKey = "" ∨ 512 < dedupeKey.length then
    .error (.valueError "dedupe_key must be non-empty and bounded")
  else
    let itemId := "goalflight:" ++ dedupeNamespace ++ ":" ++ dedupeKey
    .ok (itemId, j.raiseSystemAttention ⟨itemId, itemType, reason, dispatchId, now, none⟩
      ("journal:" ++ dedupeNamespace ++ ":" ++ itemId) now)

/-- An open item `resolve_system_attention` resolves. -/
def SystemAttentionItem.Resolvable (itemType dispatchId : String)
    (keepReason : Option String) (a : SystemAttentionItem) : Prop :=
  a.itemType = itemType ∧ a.resolvedAt = none ∧ keepReason ≠ some a.reason ∧
    a.dispatchId = dispatchId

instance (itemType dispatchId : String) (keepReason : Option String)
    (a : SystemAttentionItem) : Decidable (a.Resolvable itemType dispatchId keepReason) := by
  unfold SystemAttentionItem.Resolvable
  infer_instance

/-- `resolve_system_attention`.  The value is the list of resolved items. -/
def Journal.resolveSystemAttention (j : Journal) (itemType dispatchId : String)
    (keepReason : Option String) (now : Timestamp) : Tx (List String) :=
  if dispatchId = "" ∨ 512 < dispatchId.length then
    .error (.valueError "dispatch_id must be non-empty and bounded")
  else
    let resolvable := SystemAttentionItem.Resolvable itemType dispatchId keepReason
    let resolved := (j.systemAttention.rows.filter fun a => resolvable a).map
      SystemAttentionItem.itemId
    .ok (resolved, { j with
      systemAttention := j.systemAttention.update
        (fun a => if resolvable a then { a with resolvedAt := some now } else a)
        (by intro a b h; split <;> split <;> exact h)
      delivery := j.delivery.withdrawWhere
        (fun r => r.Attention ∧
          ∃ id ∈ resolved, r.event = ⟨"journal", id⟩) now })

/-! ### Failed passes -/

/-- `OUTBOX_MAX_PROJECTION_ATTEMPTS`. -/
def outboxMaxProjectionAttempts : ℕ := 3

/-- `_record_outbox_projection_failure`, for the row as the pass read it.  The value says
whether the row is now quarantined. -/
def Journal.recordOutboxProjectionFailure (j : Journal) (row : TerminalOutboxRow)
    (error : String) (now retryAt : Timestamp) : Tx Bool :=
  let attempts := row.projectionAttempts + 1
  let quarantined := outboxMaxProjectionAttempts ≤ attempts
  let waiting := fun o : TerminalOutboxRow => o.key = row.key ∧ o.Pending
  match j.outbox.find? fun o => waiting o with
  | none => .error (.casMismatch "outbox projection failure lost to another projector")
  | some _ =>
    let j := { j with
      outbox := j.outbox.modifyWhere waiting TerminalOutboxRow.projectedAt attempts
        (some error) (if quarantined then none else some retryAt)
        (if quarantined then some now else none) }
    if quarantined then
      let itemId := "goalflight:outbox-quarantine:" ++ row.attemptId ++ ":" ++
        row.transitionId
      .ok (true, j.raiseSystemAttention
        ⟨itemId, "terminal_outbox_quarantined", "projection_retry_exhausted",
          row.recipient, now, none⟩
        ("journal:outbox-quarantine:" ++ itemId) now)
    else .ok (false, j)

/-! ### The tables the projector writes -/

theorem markOutboxProjected_write {u : Unit}
    (h : j.markOutboxProjected row now = .ok (u, j')) :
    AttemptWrite j j' := by
  unfold Journal.markOutboxProjected at h
  split at h
  · cases h
  · cases h
    exact ⟨_, _, _, rfl⟩

/-- What raising system attention can do to the delivery rows: add one quiet row for the
wildcard, unless it has one already. -/
theorem raiseSystemAttention_delivery (j : Journal) (item : SystemAttentionItem)
    (carrierPath : String) (now : Timestamp) :
    (j.raiseSystemAttention item carrierPath now).delivery = j.delivery ∨
      j.delivery.insert? (attentionRow j.delivery.nextRowid .wildcard item.itemId
        (j.nextAttentionSeq .wildcard) carrierPath now) =
          some (j.raiseSystemAttention item carrierPath now).delivery := by
  unfold Journal.raiseSystemAttention
  simp only
  split
  · exact .inl rfl
  · exact .inr ‹_›

theorem raiseSystemAttention_write (j : Journal) (item : SystemAttentionItem)
    (carrierPath : String) (now : Timestamp) :
    MailWrite DeliveryTable.Spares j (j.raiseSystemAttention item carrierPath now) := by
  have hdelivery : j.delivery.Spares
      (j.raiseSystemAttention item carrierPath now).delivery := by
    rcases raiseSystemAttention_delivery j item carrierPath now with hsame | hinsert
    · rw [hsame]
      exact .refl _
    · exact .of_insert hinsert (by simp [attentionRow])
  refine ⟨hdelivery, ?_, ?_⟩ <;> unfold Journal.raiseSystemAttention <;> simp only <;> split
  · exact .refl _
  · exact .of_invalidate rfl rfl
  · exact ⟨_, _, _, _, rfl⟩
  · exact ⟨_, _, _, _, rfl⟩

theorem recordSystemAttention_eq_ok {reason dedupeNamespace dedupeKey itemId : String}
    (h : j.recordSystemAttention itemType reason dedupeNamespace dedupeKey dispatchId now =
      .ok (itemId, j')) :
    ∃ item carrierPath, j' = j.raiseSystemAttention item carrierPath now := by
  unfold Journal.recordSystemAttention at h
  split at h
  · cases h
  · cases h
    exact ⟨_, _, rfl⟩

/-- What a recorded failure does: the outbox row's projection columns change, and a
quarantine raises system attention besides. -/
theorem recordOutboxProjectionFailure_eq_ok {error : String} {retryAt : Timestamp}
    {quarantined : Bool}
    (h : j.recordOutboxProjectionFailure row error now retryAt = .ok (quarantined, j')) :
    ∃ retry quarantine, ∃ i : Journal, i = { j with
        outbox := j.outbox.modifyWhere (fun o => o.key = row.key ∧ o.Pending)
          TerminalOutboxRow.projectedAt (row.projectionAttempts + 1) (some error) retry
          quarantine } ∧
      (j' = i ∨ ∃ item carrierPath, j' = i.raiseSystemAttention item carrierPath now) := by
  unfold Journal.recordOutboxProjectionFailure at h
  simp only at h
  split at h
  · cases h
  · split at h
    · cases h
      exact ⟨_, _, _, rfl, .inr ⟨_, _, rfl⟩⟩
    · cases h
      exact ⟨_, _, _, rfl, .inl rfl⟩

theorem resolveSystemAttention_eq_ok {keepReason : Option String} {resolved : List String}
    (h : j.resolveSystemAttention itemType dispatchId keepReason now = .ok (resolved, j')) :
    ∃ items, j' = { j with
      systemAttention := items
      delivery := j.delivery.withdrawWhere
        (fun r => r.Attention ∧
          ∃ id ∈ resolved, r.event = ⟨"journal", id⟩) now } := by
  unfold Journal.resolveSystemAttention at h
  split at h
  · cases h
  · cases h
    exact ⟨_, rfl⟩

theorem recordSystemAttention_write {reason dedupeNamespace dedupeKey itemId : String}
    (h : j.recordSystemAttention itemType reason dedupeNamespace dedupeKey dispatchId now =
      .ok (itemId, j')) : MailWrite DeliveryTable.Spares j j' := by
  obtain ⟨item, carrierPath, rfl⟩ := recordSystemAttention_eq_ok h
  exact raiseSystemAttention_write j item carrierPath now

theorem resolveSystemAttention_write {keepReason : Option String} {resolved : List String}
    (h : j.resolveSystemAttention itemType dispatchId keepReason now = .ok (resolved, j')) :
    MailWrite DeliveryTable.Spares j j' := by
  obtain ⟨items, rfl⟩ := resolveSystemAttention_eq_ok h
  exact ⟨.withdrawWhere _ (fun _ h => h.1) _, .refl _, _, _, _, _, rfl⟩

theorem recordOutboxProjectionFailure_write {error : String} {retryAt : Timestamp}
    {quarantined : Bool}
    (h : j.recordOutboxProjectionFailure row error now retryAt = .ok (quarantined, j')) :
    ∃ i, AttemptWrite j i ∧ MailWrite DeliveryTable.Spares i j' := by
  obtain ⟨retry, quarantine, i, hi, hj'⟩ := recordOutboxProjectionFailure_eq_ok h
  refine ⟨i, ⟨_, _, _, hi⟩, ?_⟩
  rcases hj' with rfl | ⟨item, carrierPath, rfl⟩
  · exact .refl _
  · exact raiseSystemAttention_write i item carrierPath now

end GoalFlight
