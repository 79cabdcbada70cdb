import GoalFlight.Journal.Delivery

/-!
# Orphaned-work attention

When a lease or a listener ends without its controller retiring, the journal opens an
`orphaned_controller_work` item for the label, if the label has work that someone
must care for, and delivers a quiet `controller_attention` event to the label.  A
label has at most one open item at a time: opening and claiming both *collapse* the
older ones, which withdraws their delivery events.
-/

namespace GoalFlight

open Relational

/-- The lifecycle states `_care_work_exists` counts as live. -/
abbrev DispatchAttempt.Live (a : DispatchAttempt) : Prop := a.lifecycle.terminal? = none

/-- `_care_work_exists`: some attempt is live, or unread waking mail other than
attention waits for the label. -/
def Journal.careWorkExists (j : Journal) (label : Label) : Prop :=
  (∃ a ∈ j.attempts.rows, a.Live) ∨
    ∃ r ∈ j.delivery.rows, j.Unread label r ∧ r.wakeClass = .waking ∧
      ¬ r.Attention

instance (j : Journal) (label : Label) : Decidable (j.careWorkExists label) := by
  unfold Journal.careWorkExists
  infer_instance

/-- The newest generation with an open item for the label. -/
def Journal.openAttentionGeneration (j : Journal) (label : Label) : Option ℕ :=
  ((j.attention.rows.filter fun a => a.sourceLabel = label ∧ a.Open).map
    AttentionItem.sourceGeneration).max?

/-- An open item of the label that is not its newest one. -/
def Journal.StaleAttention (j : Journal) (label : Label) (a : AttentionItem) : Prop :=
  a.sourceLabel = label ∧ a.Open ∧ j.openAttentionGeneration label ≠ some a.sourceGeneration

instance (j : Journal) (label : Label) (a : AttentionItem) :
    Decidable (j.StaleAttention label a) := by
  unfold Journal.StaleAttention
  infer_instance

/-- The event an attention item is delivered as. -/
def AttentionItem.event (a : AttentionItem) : EventId := ⟨"journal", a.itemId⟩

/-- The delivery rows of the label's stale items. -/
def Journal.StaleAttentionEvent (j : Journal) (label : Label) (r : DeliveryEvent) : Prop :=
  r.Attention ∧
    ∃ a ∈ j.attention.rows, j.StaleAttention label a ∧ a.event = r.event

instance (j : Journal) (label : Label) (r : DeliveryEvent) :
    Decidable (j.StaleAttentionEvent label r) := by
  unfold Journal.StaleAttentionEvent
  infer_instance

/-- `_collapse_open_attention`: keep the newest open item of the label, resolve the
others and withdraw their delivery rows. -/
def Journal.collapseOpenAttention (j : Journal) (label : Label) (now : Timestamp) :
    Journal :=
  { j with
    attention := j.attention.update
      (fun a => if j.StaleAttention label a then { a with resolvedAt := some now } else a)
      (by
        rintro a b ⟨hkey, hsource⟩
        constructor
        · split <;> split <;> exact hkey
        · split <;> split <;> exact hsource)
    delivery := j.delivery.withdrawWhere (j.StaleAttentionEvent label) now }

/-- The sequence number of a recipient's next row on the `attention` stream, which is
numbered per recipient. -/
def Journal.nextAttentionSeq (j : Journal) (recipient : Recipient) : ℕ :=
  ((j.delivery.rows.filter fun r => r.recipient = recipient ∧ r.streamId = "attention").map
    DeliveryEvent.streamSeq).max?.getD 0 + 1

/-- The row of a `controller_attention` event, visible as soon as it is inserted. -/
def attentionRow (rowid : ℕ) (recipient : Recipient) (itemId : String) (streamSeq : ℕ)
    (carrierPath : String) (now : Timestamp) : DeliveryEvent where
  rowid := rowid
  recipient := recipient
  event := ⟨"journal", itemId⟩
  streamId := "attention"
  streamSeq := streamSeq
  carrierPath := carrierPath
  eventType := "controller_attention"
  wakeClass := .quiet
  createdAt := now
  projectedAt := some now
  withdrawnAt := none

/-- `_materialize_attention`, with `itemId` the UUID it draws.  Nothing happens when no
work needs care, or when the label still has an open item or already had one for this
generation. -/
def Journal.materializeAttention (j : Journal) (label : Label) (generation : ℕ)
    (triggerSide : TriggerSide) (reason : String) (itemId : String) (now : Timestamp) :
    Tx Unit :=
  if ¬ j.careWorkExists label then .ok ((), j)
  else
    let inherited := j.openAttentionGeneration label
    let j := j.collapseOpenAttention label now
    if inherited.isSome ∨ ∃ a ∈ j.attention.rows,
        a.sourceLabel = label ∧ a.sourceGeneration = generation then .ok ((), j)
    else
      let item := ⟨itemId, label, generation, triggerSide, reason, now, none⟩
      match j.attention.insert? item with
      | none => .error (.constraint "attention_items")
      | some attention =>
        let row := attentionRow j.delivery.nextRowid (.label label) itemId
          (j.nextAttentionSeq (.label label)) ("journal:goal-flight-resume:" ++ itemId) now
        match j.delivery.insert? row with
        | none => .error (.constraint "delivery_events")
        | some delivery =>
          let j := { j with attention := attention, delivery := delivery }
          .ok ((), { j with
            cursors := j.invalidateDeliveryCursorSnapshots (.label label) now none })

/-- What `_materialize_attention` can do: nothing, a collapse, or a collapse and one new
item with its delivery row. -/
theorem Journal.materializeAttention_cases {j j' : Journal} {label : Label} {generation : ℕ}
    {triggerSide : TriggerSide} {reason itemId : String} {now : Timestamp} {u : Unit}
    (h : j.materializeAttention label generation triggerSide reason itemId now =
      .ok (u, j')) :
    j' = j ∨ j' = j.collapseOpenAttention label now ∨
      ∃ attention delivery carrierPath,
        (j.collapseOpenAttention label now).delivery.insert?
          (attentionRow (j.collapseOpenAttention label now).delivery.nextRowid
            (.label label) itemId
            ((j.collapseOpenAttention label now).nextAttentionSeq (.label label))
            carrierPath now) = some delivery ∧
        j' = { j.collapseOpenAttention label now with
          attention := attention
          delivery := delivery
          cursors :=
            { j.collapseOpenAttention label now with
              attention := attention
              delivery := delivery }.invalidateDeliveryCursorSnapshots
                (.label label) now none } := by
  unfold Journal.materializeAttention at h
  split at h
  · cases h
    exact .inl rfl
  · simp only at h
    split at h
    · cases h
      exact .inr (.inl rfl)
    · split at h
      · cases h
      · rename_i attention _
        split at h
        · cases h
        · rename_i delivery hdelivery
          cases h
          exact .inr (.inr ⟨attention, delivery, _, hdelivery, rfl⟩)

theorem collapseOpenAttention_write (j : Journal) (label : Label) (now : Timestamp) :
    MailOnly DeliveryTable.Spares j (j.collapseOpenAttention label now) :=
  ⟨⟨.withdrawWhere _ (fun _ h => h.1) _, .refl _, _, _, _, _, rfl⟩, rfl⟩

theorem materializeAttention_write {j j' : Journal} {label : Label} {generation : ℕ}
    {triggerSide : TriggerSide} {reason itemId : String} {now : Timestamp} {u : Unit}
    (h : j.materializeAttention label generation triggerSide reason itemId now =
      .ok (u, j')) : MailOnly DeliveryTable.Spares j j' := by
  have hcollapse := collapseOpenAttention_write j label now
  rcases Journal.materializeAttention_cases h with rfl | rfl | ⟨_, _, _, hinsert, rfl⟩
  · exact .refl _
  · exact hcollapse
  · have hborn := DeliveryTable.Spares.of_insert hinsert (by simp [attentionRow])
    exact ⟨⟨hcollapse.delivery.trans hborn, .of_invalidate rfl rfl, _, _, _, _, rfl⟩, rfl⟩

end GoalFlight
