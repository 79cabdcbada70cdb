import GoalFlight.Journal.Fence
import GoalFlight.Library.Join
import GoalFlight.Projector.World

/-!
# The retry record of an outbox row

A pass of `project_terminal_outbox` works on rows it read earlier, and other passes work on the
same rows.  A failure and a success both store the attempts it read, plus one; a failure is recorded
only on a row that is still pending, a success whatever became of the row.

In every run no row is both projected and quarantined, and a row is quarantined only after
`OUTBOX_MAX_PROJECTION_ATTEMPTS` recorded failures.  That counts never go down and that no
attention item is left about a quarantine that is over hold exactly as long as no pass writes back a
count that others have overtaken by more than one, and none records a success on a row quarantined
meanwhile (`retryRecord_honest_iff`).
-/

namespace GoalFlight

open Relational

variable {w : World} {a : Action} {j j' : Journal} {op : JournalOp} {now : Timestamp}
  {o o' row : TerminalOutboxRow}

variable {error : String} {retryAt : Timestamp} {t : OutboxTable}
  {failures : String × String → ℕ}

/-! ### The attention item of a quarantine -/

/-- `item_id` of the item `_record_outbox_projection_failure` raises. -/
def TerminalOutboxRow.quarantineItemId (o : TerminalOutboxRow) : String :=
  "goalflight:outbox-quarantine:" ++ o.attemptId ++ ":" ++ o.transitionId

/-- `item_type` of that item. -/
def outboxQuarantined : String := "terminal_outbox_quarantined"

/-- An `OPEN` item says that the row is quarantined. -/
def Journal.QuarantineOpen (j : Journal) (o : TerminalOutboxRow) : Prop :=
  ∃ a ∈ j.systemAttention.rows, a.itemType = outboxQuarantined ∧
    a.itemId = o.quarantineItemId ∧ a.resolvedAt = none

instance (j : Journal) (o : TerminalOutboxRow) : Decidable (j.QuarantineOpen o) := by
  unfold Journal.QuarantineOpen
  infer_instance

/-! ### What is asked of a step -/

/-- The count of attempts of no row goes down, and every open item is about a row that is
quarantined. -/
def World.KeepsRecord (w : World) (a : Action) : Prop :=
  (∀ o ∈ w.journal.outbox.rows, ∃ o' ∈ (w.step a).journal.outbox.rows,
    o'.key = o.key ∧ o.projectionAttempts ≤ o'.projectionAttempts) ∧
  ∀ o ∈ (w.step a).journal.outbox.rows, (w.step a).journal.QuarantineOpen o →
    o.projectionQuarantinedAt ≠ none

instance (w : World) (a : Action) : Decidable (w.KeepsRecord a) := by
  unfold World.KeepsRecord
  infer_instance

/-- A step in which a pass records a failure of the row. -/
def World.RecordsFailure (key : String × String) (w : World) (a : Action) : Prop :=
  match w.transaction a with
  | some (.recordOutboxProjectionFailure row error now retryAt) =>
    row.key = key ∧ (w.journal.recordOutboxProjectionFailure row error now retryAt).isOk
  | _ => False

instance (key : String × String) (w : World) (a : Action) :
    Decidable (w.RecordsFailure key a) := by
  unfold World.RecordsFailure
  split <;> infer_instance

/-- What holds of the outbox in every state: no row is both projected and quarantined, and
a quarantined row has had its `OUTBOX_MAX_PROJECTION_ATTEMPTS` failures. -/
def World.QuarantinedInTime (actions : List Action) : Prop :=
  ∀ o ∈ (Machine.run World.step World.fresh actions).journal.outbox.rows,
    (o.projectedAt = none ∨ o.projectionQuarantinedAt = none) ∧
      (o.projectionQuarantinedAt ≠ none → outboxMaxProjectionAttempts ≤
        Machine.count World.step (World.RecordsFailure o.key) World.fresh actions)

/-- **An honest record.**  Every step keeps the record, and every state it passes through
has its rows quarantined in time. -/
def World.RetryRecordHonest (actions : List Action) : Prop :=
  Machine.Meets World.step World.KeepsRecord World.fresh actions ∧
    ∀ before after, actions = before ++ after → World.QuarantinedInTime before

/-! ### The condition -/

/-- A transaction that writes back a count does not fall behind the stored one, and a
success is not recorded on a row whose quarantine somebody has been told of. -/
def JournalOp.UpToDate (j : Journal) : JournalOp → Prop
  | .markOutboxProjected row _ => ∀ o ∈ j.outbox.rows, o.key = row.key →
      o.projectionAttempts ≤ row.projectionAttempts + 1 ∧ ¬ j.QuarantineOpen o
  | .recordOutboxProjectionFailure row .. => ∀ o ∈ j.outbox.rows, o.key = row.key →
      o.Pending → o.projectionAttempts ≤ row.projectionAttempts + 1
  | _ => True

instance (j : Journal) : ∀ op : JournalOp, Decidable (op.UpToDate j)
  | .markOutboxProjected row _ => inferInstanceAs (Decidable (∀ o ∈ j.outbox.rows,
      o.key = row.key → o.projectionAttempts ≤ row.projectionAttempts + 1 ∧
        ¬ j.QuarantineOpen o))
  | .recordOutboxProjectionFailure row .. => inferInstanceAs (Decidable
      (∀ o ∈ j.outbox.rows, o.key = row.key → o.Pending →
        o.projectionAttempts ≤ row.projectionAttempts + 1))
  | .recordDeliveryEvent .. => isTrue trivial
  | .markDeliveryProjected .. => isTrue trivial
  | .withdrawDeliveryEvent .. => isTrue trivial
  | .reconcileTerminalDeliveryRecipients .. => isTrue trivial
  | .expireStaleLeases .. => isTrue trivial
  | .renewActiveLease .. => isTrue trivial
  | .claimOrRenewLease .. => isTrue trivial
  | .releaseLease .. => isTrue trivial
  | .armListener .. => isTrue trivial
  | .exitListener .. => isTrue trivial
  | .setCursor .. => isTrue trivial
  | .advanceCursor .. => isTrue trivial
  | .prepareAttempt .. => isTrue trivial
  | .rebindPreparedAttemptAccount .. => isTrue trivial
  | .startAttempt .. => isTrue trivial
  | .markAttemptRunning .. => isTrue trivial
  | .commitTerminal .. => isTrue trivial
  | .recordSystemAttention .. => isTrue trivial
  | .resolveSystemAttention .. => isTrue trivial

/-- The condition on a step of the world. -/
def World.UpToDate (w : World) (a : Action) : Prop :=
  ∀ op ∈ w.transaction a, op.UpToDate w.journal

instance (w : World) (a : Action) : Decidable (w.UpToDate a) := by
  unfold World.UpToDate
  infer_instance

/-- What the other writers keep to: an attempt id is a UUID, which has no colon, and only
the projector raises items about quarantines. -/
def JournalOp.Ordinary : JournalOp → Prop
  | .commitTerminal q => ':' ∉ q.attemptId.toList
  | .recordSystemAttention itemType .. => itemType ≠ outboxQuarantined
  | _ => True

/-- The transactions of an action outside of passes and posts are ordinary. -/
def Action.Ordinary : Action → Prop
  | .journal op => op.Ordinary
  | _ => True

/-! ### Transactions that leave the items alone -/

theorem CursorsWrite.systemAttention (h : CursorsWrite j j') :
    j'.systemAttention = j.systemAttention := by
  obtain ⟨_, _, _, _, rfl⟩ := h.rest
  rfl

theorem AttemptWrite.systemAttention (h : AttemptWrite j j') :
    j'.systemAttention = j.systemAttention := by
  obtain ⟨_, _, _, rfl⟩ := h
  rfl

/-- The transactions that write `system_attention_items`. -/
def JournalOp.WritesItems : JournalOp → Prop
  | .recordOutboxProjectionFailure .. => True
  | .recordSystemAttention .. => True
  | .resolveSystemAttention .. => True
  | _ => False

theorem JournalOp.run_systemAttention (h : op.run j = .ok j') (hop : ¬ op.WritesItems) :
    j'.systemAttention = j.systemAttention := by
  have hw := JournalOp.run_writes h
  cases op with
  | recordOutboxProjectionFailure | recordSystemAttention | resolveSystemAttention =>
    exact absurd trivial hop
  | prepareAttempt | rebindPreparedAttemptAccount | startAttempt | markAttemptRunning =>
    exact hw.attemptWrite.systemAttention
  | _ => exact hw.systemAttention

/-! ### What a transaction does to rows and items -/

theorem OutboxTable.eq_of_key (ho : o ∈ t) (ho' : o' ∈ t) (h : o.key = o'.key) : o = o' :=
  Table.eq_of_not_compat ho ho' (fun hc => hc.key h) fun hc => hc.key h.symm

theorem OutboxTable.modifyWhere_keeps_iff {p : TerminalOutboxRow → Prop} [DecidablePred p]
    {projectedAt : TerminalOutboxRow → Option Timestamp} {attempts : ℕ} {error : Option String}
    {retryAt quarantinedAt : Option Timestamp} :
    (∀ o ∈ t.rows,
        ∃ o' ∈ (t.modifyWhere p projectedAt attempts error retryAt quarantinedAt).rows,
          o'.key = o.key ∧ o.projectionAttempts ≤ o'.projectionAttempts) ↔
      ∀ o ∈ t.rows, p o → o.projectionAttempts ≤ attempts := by
  constructor
  · intro h o ho hp
    obtain ⟨o', ho', hkey, hle⟩ := h o ho
    obtain ⟨m, hm, rfl⟩ := Table.exists_of_mem (Table.mem_def.mpr ho') rfl
    have hmo : m = o := by
      refine OutboxTable.eq_of_key hm ho (Eq.trans ?_ hkey)
      split <;> rfl
    subst hmo
    rw [if_pos hp] at hle
    exact hle
  · intro h o ho
    refine ⟨_, Table.apply_mem rfl (Table.mem_def.mpr ho), ?_⟩
    split
    · exact ⟨rfl, h o ho ‹_›⟩
    · exact ⟨rfl, le_refl _⟩

/-- The quarantine items after the transaction were there before, and were open if they
are. -/
def Journal.ItemsFrom (j j' : Journal) : Prop :=
  ∀ a ∈ j'.systemAttention.rows, a.itemType = outboxQuarantined →
    ∃ b ∈ j.systemAttention.rows, b.itemType = outboxQuarantined ∧ b.itemId = a.itemId ∧
      (a.resolvedAt = none → b.resolvedAt = none)

theorem Journal.ItemsFrom.of_eq (h : j'.systemAttention = j.systemAttention) :
    j.ItemsFrom j' := by
  intro a ha htype
  rw [h] at ha
  exact ⟨a, ha, htype, rfl, id⟩

theorem raiseSystemAttention_items {item : SystemAttentionItem} {carrierPath : String}
    {a : SystemAttentionItem}
    (ha : a ∈ (j.raiseSystemAttention item carrierPath now).systemAttention.rows) :
    a ∈ j.systemAttention.rows ∨ a = item := by
  have heq : (j.raiseSystemAttention item carrierPath now).systemAttention =
      (j.systemAttention.insert? item).getD j.systemAttention := by
    unfold Journal.raiseSystemAttention
    simp only
    split <;> rfl
  rw [heq] at ha
  cases hinsert : j.systemAttention.insert? item with
  | none =>
    rw [hinsert] at ha
    exact .inl ha
  | some items =>
    rw [hinsert] at ha
    exact (Table.mem_of_insert? hinsert).mp (Table.mem_def.mpr ha)

theorem resolveSystemAttention_items {itemType dispatchId : String}
    {keepReason : Option String} {v : List String}
    (h : j.resolveSystemAttention itemType dispatchId keepReason now = .ok (v, j')) :
    j.ItemsFrom j' := by
  unfold Journal.resolveSystemAttention at h
  split at h
  · cases h
  · cases h
    intro a ha htype
    obtain ⟨b, hb, rfl⟩ := Table.exists_of_mem (Table.mem_def.mpr ha) rfl
    refine ⟨b, hb, ?_⟩
    split at htype
    · rw [if_pos ‹_›]
      exact ⟨htype, rfl, fun hnone => absurd hnone (by simp)⟩
    · rw [if_neg ‹_›]
      exact ⟨htype, rfl, id⟩

/-- A new outbox row has had no attempt. -/
structure TerminalOutboxRow.New (o : TerminalOutboxRow) (q : TerminalRequest) : Prop where
  attemptId : o.attemptId = q.attemptId
  attempts : o.projectionAttempts = 0
  pending : o.Pending

/-- What a committed `commit_terminal` does to the outbox: nothing, or one new row. -/
theorem commitTerminal_outbox {q : TerminalRequest} {v : TerminalCommit}
    (h : j.commitTerminal q = .ok (v, j')) :
    j'.outbox = j.outbox ∨ ∃ o, j.outbox.insert? o = some j'.outbox ∧ o.New q := by
  obtain ⟨a, -, -, ⟨hw, -⟩ | ⟨t, -, -, hs⟩⟩ := commitTerminal_cases h
  · unfold Journal.writeVerdict at hw
    simp only at hw
    split at hw
    · cases hw
    split at hw
    · cases hw
    split at hw
    · cases hw
    split at hw
    · cases hw
    · rename_i hinsert
      cases hw
      exact .inr ⟨_, hinsert, rfl, rfl, rfl, rfl⟩
  · obtain ⟨rfl, -⟩ := standingVerdict_eq_ok hs
    exact .inl rfl

/-- What a recorded success does: some row has the key, and the rows that have it are
projected. -/
theorem markOutboxProjected_eq_ok {u : Unit}
    (h : j.markOutboxProjected row now = .ok (u, j')) :
    (∃ o ∈ j.outbox, o.key = row.key) ∧ j'.systemAttention = j.systemAttention ∧
      j'.outbox = j.outbox.modifyWhere (fun o => o.key = row.key) (fun _ => some now)
        (row.projectionAttempts + 1) none none none := by
  unfold Journal.markOutboxProjected at h
  split at h
  · cases h
  · rename_i o hfind
    cases h
    obtain ⟨ho, hkey⟩ := Table.find?_eq_some hfind
    exact ⟨⟨o, ho, of_decide_eq_true hkey⟩, rfl, rfl⟩

/-- The time a failure quarantines its row, when the attempts are used up. -/
def TerminalOutboxRow.quarantineTime (row : TerminalOutboxRow) (now : Timestamp) :
    Option Timestamp :=
  if outboxMaxProjectionAttempts ≤ row.projectionAttempts + 1 then some now else none

/-- What a recorded failure does: the pending row with the key gets the count, and it gets
an item when it is quarantined. -/
theorem recordOutboxProjectionFailure_rows {quarantined : Bool}
    (h : j.recordOutboxProjectionFailure row error now retryAt = .ok (quarantined, j')) :
    (∃ retry, j'.outbox = j.outbox.modifyWhere (fun o => o.key = row.key ∧ o.Pending)
      TerminalOutboxRow.projectedAt (row.projectionAttempts + 1) (some error) retry
      (row.quarantineTime now)) ∧
    (∃ o ∈ j.outbox, o.key = row.key ∧ o.Pending) ∧
    ∀ a ∈ j'.systemAttention.rows, a ∈ j.systemAttention.rows ∨
      row.quarantineTime now ≠ none ∧ a.itemId = row.quarantineItemId := by
  unfold Journal.recordOutboxProjectionFailure at h
  simp only at h
  split at h
  · cases h
  rename_i o hfind
  obtain ⟨ho, hwaiting⟩ := Table.find?_eq_some hfind
  have hrow : ∃ o ∈ j.outbox, o.key = row.key ∧ o.Pending :=
    ⟨o, ho, of_decide_eq_true hwaiting⟩
  split at h
  · rename_i hmax
    cases h
    refine ⟨⟨none, ?_⟩, hrow, fun a ha => ?_⟩
    · rw [TerminalOutboxRow.quarantineTime, if_pos hmax]
      exact (raiseSystemAttention_write _ _ _ now).sameStreams.outbox.trans (by simp)
    · refine (raiseSystemAttention_items ha).imp id fun hitem => ⟨?_, ?_⟩
      · simp [TerminalOutboxRow.quarantineTime, hmax]
      · rw [hitem]
        rfl
  · rename_i hmax
    cases h
    refine ⟨⟨some retryAt, ?_⟩, hrow, fun a ha => .inl ha⟩
    simp [TerminalOutboxRow.quarantineTime, hmax]

/-- **The ways a transaction can touch the retry record.** -/
inductive JournalOp.RetryCase (op : JournalOp) (j j' : Journal) : Prop
  /-- Rows as they were, and no new item. -/
  | aside (outbox : j'.outbox = j.outbox) (items : j.ItemsFrom j') (upToDate : op.UpToDate j)
      (other : ∀ row error now retryAt, op ≠ .recordOutboxProjectionFailure row error now retryAt)
  /-- A new row. -/
  | inserts (q : TerminalRequest) (o : TerminalOutboxRow) (commit : op = .commitTerminal q)
      (insert : j.outbox.insert? o = some j'.outbox) (fresh : o.New q)
      (items : j'.systemAttention = j.systemAttention)
  /-- A recorded success. -/
  | marks (row : TerminalOutboxRow) (now : Timestamp) (mark : op = .markOutboxProjected row now)
      (outbox : j'.outbox = j.outbox.modifyWhere (fun o => o.key = row.key)
        (fun _ => some now) (row.projectionAttempts + 1) none none none)
      (items : j'.systemAttention = j.systemAttention)
  /-- A recorded failure. -/
  | fails (row : TerminalOutboxRow) (error : String) (now retryAt : Timestamp)
      (retry : Option Timestamp)
      (failure : op = .recordOutboxProjectionFailure row error now retryAt)
      (pending : ∃ o ∈ j.outbox, o.key = row.key ∧ o.Pending)
      (outbox : j'.outbox = j.outbox.modifyWhere (fun o => o.key = row.key ∧ o.Pending)
        TerminalOutboxRow.projectedAt (row.projectionAttempts + 1) (some error) retry
        (row.quarantineTime now))
      (items : ∀ a ∈ j'.systemAttention.rows, a ∈ j.systemAttention.rows ∨
        row.quarantineTime now ≠ none ∧ a.itemId = row.quarantineItemId)

/-- **Cases.**  Every transaction that commits is one of them. -/
theorem JournalOp.retryCase (h : op.run j = .ok j') (hordinary : op.Ordinary) :
    op.RetryCase j j' := by
  cases op with
  | commitTerminal q =>
    obtain ⟨v, hv⟩ := Tx.committed_eq_ok.mp h
    have hitems := (commitTerminal_write hv).systemAttention
    rcases commitTerminal_outbox hv with hsame | ⟨o, hinsert, hfresh⟩
    · exact .aside hsame (.of_eq hitems) trivial fun _ _ _ _ => JournalOp.noConfusion
    · exact .inserts q o rfl hinsert hfresh hitems
  | markOutboxProjected row now =>
    obtain ⟨v, hv⟩ := Tx.committed_eq_ok.mp h
    obtain ⟨-, hitems, houtbox⟩ := markOutboxProjected_eq_ok hv
    exact .marks row now rfl houtbox hitems
  | recordOutboxProjectionFailure row error now retryAt =>
    obtain ⟨v, hv⟩ := Tx.committed_eq_ok.mp h
    obtain ⟨⟨retry, houtbox⟩, hpending, hitems⟩ := recordOutboxProjectionFailure_rows hv
    exact .fails row error now retryAt retry rfl hpending houtbox hitems
  | recordSystemAttention itemType reason dedupeNamespace dedupeKey dispatchId now =>
    have houtbox := JournalOp.run_outbox h id
    obtain ⟨v, hv⟩ := Tx.committed_eq_ok.mp h
    refine .aside houtbox (fun a ha htype => ?_) trivial fun _ _ _ _ => JournalOp.noConfusion
    unfold Journal.recordSystemAttention at hv
    split at hv
    · cases hv
    · cases hv
      rcases raiseSystemAttention_items ha with hold | rfl
      · exact ⟨a, hold, htype, rfl, id⟩
      · exact absurd htype hordinary
  | resolveSystemAttention itemType dispatchId keepReason now =>
    have houtbox := JournalOp.run_outbox h id
    obtain ⟨v, hv⟩ := Tx.committed_eq_ok.mp h
    exact .aside houtbox (resolveSystemAttention_items hv) trivial
      fun _ _ _ _ => JournalOp.noConfusion
  | _ =>
    exact .aside (JournalOp.run_outbox h id) (.of_eq (JournalOp.run_systemAttention h id))
      trivial fun _ _ _ _ => JournalOp.noConfusion

/-! ### The rows passes work on -/

theorem World.passStage_rows (w : World) (p : Pass) (row : TerminalOutboxRow)
    (now retryAt : Timestamp) :
    (w.passStage p row now retryAt).1.passes = w.passes ∧
      ∀ r ∈ (w.passStage p row now retryAt).2.rows, r ∈ p.rows := by
  have hnext : ∀ r ∈ p.next.rows, r ∈ p.rows := fun r => List.mem_of_mem_tail
  have hinterrupt : ∀ error, ∀ r ∈ (p.interrupt error).rows, r ∈ p.rows := by
    intro error r hr
    unfold Pass.interrupt at hr
    split at hr
    · exact hnext r hr
    · exact hnext r hr
    · exact hr
  unfold World.passStage
  split
  · split
    · exact ⟨rfl, fun _ => id⟩
    · split
      · exact ⟨rfl, hinterrupt _⟩
      · exact ⟨rfl, fun _ => id⟩
  · split <;> exact ⟨rfl, fun _ => id⟩
  · exact ⟨rfl, fun _ => id⟩
  · exact ⟨rfl, fun _ => id⟩
  · split
    · exact ⟨rfl, hinterrupt _⟩
    · exact ⟨rfl, fun _ => id⟩
  · split
    · exact ⟨rfl, hinterrupt _⟩
    · exact ⟨rfl, fun _ => id⟩
  · split
    · exact ⟨rfl, hinterrupt _⟩
    · exact ⟨rfl, fun _ => id⟩
  · split <;> exact ⟨rfl, hnext⟩
  · split <;> exact ⟨rfl, hnext⟩

theorem World.postStage_passes (w : World) (p : Post) (now : Timestamp) :
    (w.postStage p now).1.passes = w.passes := by
  unfold World.postStage
  split
  · split <;> rfl
  · split <;> rfl
  · split <;> rfl
  · rfl

theorem World.step_pass_rows {p' : Pass} (hp' : p' ∈ (w.step a).passes) {r : TerminalOutboxRow}
    (hr : r ∈ p'.rows) :
    (∃ p ∈ w.passes, r ∈ p.rows) ∨ r ∈ w.journal.outbox ∧ r.Pending := by
  cases a with
  | journal op =>
    simp only [World.step] at hp'
    split at hp' <;> exact .inl ⟨p', hp', hr⟩
  | startPass rows =>
    simp only [World.step] at hp'
    split at hp'
    · rename_i hrows
      rcases List.mem_append.mp hp' with hold | hnew
      · exact .inl ⟨p', hold, hr⟩
      · obtain rfl := List.mem_singleton.mp hnew
        exact .inr (hrows r hr)
    · exact .inl ⟨p', hp', hr⟩
  | pass i now retryAt =>
    simp only [World.step] at hp'
    split at hp'
    · exact .inl ⟨p', hp', hr⟩
    rename_i p hp
    split at hp'
    · exact .inl ⟨p', hp', hr⟩
    · obtain ⟨-, hrows⟩ := w.passStage_rows p _ now retryAt
      rcases List.mem_or_eq_of_mem_set hp' with hold | rfl
      · exact .inl ⟨p', hold, hr⟩
      · exact .inl ⟨p, List.mem_of_getElem? hp, hrows r hr⟩
  | interruptPass i error =>
    simp only [World.step] at hp'
    split at hp'
    · exact .inl ⟨p', hp', hr⟩
    · rename_i p hp
      rcases List.mem_or_eq_of_mem_set hp' with hold | rfl
      · exact .inl ⟨p', hold, hr⟩
      · refine .inl ⟨p, List.mem_of_getElem? hp, ?_⟩
        unfold Pass.interrupt at hr
        split at hr
        · exact List.mem_of_mem_tail hr
        · exact List.mem_of_mem_tail hr
        · exact hr
  | crashPass i => exact .inl ⟨p', List.mem_of_mem_eraseIdx hp', hr⟩
  | startPost request =>
    simp only [World.step] at hp'
    split at hp' <;> exact .inl ⟨p', hp', hr⟩
  | post i now =>
    simp only [World.step] at hp'
    split at hp'
    · exact .inl ⟨p', hp', hr⟩
    · rename_i p _
      have hpasses := w.postStage_passes p now
      split at hp' <;> rename_i hstage <;> rw [hstage] at hpasses <;>
        exact .inl ⟨p', hpasses ▸ hp', hr⟩
  | stopPost i => exact .inl ⟨p', hp', hr⟩

theorem World.transaction_failure
    (h : w.transaction a = some (.recordOutboxProjectionFailure row error now retryAt)) :
    ∃ p ∈ w.passes, row ∈ p.rows := by
  cases a with
  | journal op =>
    simp only [World.transaction] at h
    split at h
    · cases h
      rename_i hindependent
      cases hindependent
    · cases h
  | pass i now' retryAt' =>
    simp only [World.transaction] at h
    split at h
    · cases h
    rename_i p hp
    split at h
    · cases h
    rename_i head rest hrows
    refine ⟨p, List.mem_of_getElem? hp, ?_⟩
    unfold Pass.transaction at h
    split at h <;> cases h
    rw [hrows]
    exact List.mem_cons_self
  | post i now' =>
    simp only [World.transaction] at h
    split at h
    · cases h
    · unfold Post.transaction at h
      split at h <;> cases h
  | _ => cases h

theorem World.transaction_ordinary (h : w.transaction a = some op) (ha : a.Ordinary) :
    op.Ordinary := by
  cases a with
  | journal op' =>
    simp only [World.transaction] at h
    split at h
    · cases h
      exact ha
    · cases h
  | pass i now retryAt =>
    simp only [World.transaction] at h
    split at h
    · cases h
    split at h
    · cases h
    · unfold Pass.transaction at h
      split at h <;> cases h <;> trivial
  | post i now =>
    simp only [World.transaction] at h
    split at h
    · cases h
    · unfold Post.transaction at h
      split at h <;> cases h <;> trivial
  | _ => cases h

/-! ### Failures are counted -/

/-- The rows against the failures recorded so far: a count is never too high, and a
quarantined row has used up its attempts. -/
structure Journal.RowsCounted (j : Journal) (failures : String × String → ℕ) : Prop where
  exclusive : ∀ o ∈ j.outbox, o.projectedAt = none ∨ o.projectionQuarantinedAt = none
  pending : ∀ o ∈ j.outbox, o.Pending → o.projectionAttempts ≤ failures o.key
  quarantined : ∀ o ∈ j.outbox, o.projectionQuarantinedAt ≠ none →
    outboxMaxProjectionAttempts ≤ failures o.key

theorem Journal.RowsCounted.mono {failures' : String × String → ℕ} (h : j.RowsCounted failures)
    (houtbox : j'.outbox = j.outbox) (hle : ∀ key, failures key ≤ failures' key) :
    j'.RowsCounted failures' where
  exclusive o ho := h.exclusive o (houtbox ▸ ho)
  pending o ho hpending := (h.pending o (houtbox ▸ ho) hpending).trans (hle o.key)
  quarantined o ho hq := (h.quarantined o (houtbox ▸ ho) hq).trans (hle o.key)

/-- A transaction keeps the count, when the row of a recorded failure was not too high and
the failure is counted. -/
theorem Journal.RowsCounted.of_case {failures' : String × String → ℕ}
    (h : j.RowsCounted failures) (hcase : op.RetryCase j j')
    (hle : ∀ key, failures key ≤ failures' key)
    (hfails : ∀ row error now retryAt, op = .recordOutboxProjectionFailure row error now retryAt →
      row.projectionAttempts ≤ failures row.key ∧ failures row.key + 1 ≤ failures' row.key) :
    j'.RowsCounted failures' := by
  cases hcase with
  | aside houtbox => exact h.mono houtbox hle
  | inserts q o _ hinsert hfresh _ =>
    have hrows : ∀ m ∈ j'.outbox, m ∈ j.outbox ∨ m = o := fun m hm =>
      (Table.mem_of_insert? hinsert).mp hm
    refine ⟨fun m hm => ?_, fun m hm hpending => ?_, fun m hm hq => ?_⟩
    · rcases hrows m hm with hold | rfl
      · exact h.exclusive m hold
      · exact .inl hfresh.pending.1
    · rcases hrows m hm with hold | rfl
      · exact (h.pending m hold hpending).trans (hle m.key)
      · rw [hfresh.attempts]
        exact Nat.zero_le _
    · rcases hrows m hm with hold | rfl
      · exact (h.quarantined m hold hq).trans (hle m.key)
      · exact absurd hfresh.pending.2 hq
  | marks row now _ houtbox _ =>
    refine ⟨fun m hm => ?_, fun m hm hpending => ?_, fun m hm hq => ?_⟩ <;>
      rw [houtbox] at hm <;> obtain ⟨o, ho, rfl⟩ := Table.exists_of_mem hm rfl
    · split
      · exact .inr rfl
      · exact h.exclusive o ho
    · split at hpending
      · cases hpending.1
      · rw [if_neg ‹_›]
        exact (h.pending o ho hpending).trans (hle o.key)
    · split at hq
      · exact absurd rfl hq
      · rw [if_neg ‹_›]
        exact (h.quarantined o ho hq).trans (hle o.key)
  | fails row error now retryAt retry hop _ houtbox _ =>
    obtain ⟨hread, hcounted⟩ := hfails row error now retryAt hop
    refine ⟨fun m hm => ?_, fun m hm hpending => ?_, fun m hm hq => ?_⟩ <;>
      rw [houtbox] at hm <;> obtain ⟨o, ho, rfl⟩ := Table.exists_of_mem hm rfl
    · split
      · rename_i hwaiting
        exact .inl hwaiting.2.1
      · exact h.exclusive o ho
    · by_cases hwaiting : o.key = row.key ∧ o.Pending
      · rw [if_pos hwaiting]
        show row.projectionAttempts + 1 ≤ failures' o.key
        rw [hwaiting.1]
        omega
      · rw [if_neg hwaiting] at hpending ⊢
        exact (h.pending o ho hpending).trans (hle o.key)
    · by_cases hwaiting : o.key = row.key ∧ o.Pending
      · rw [if_pos hwaiting] at hq ⊢
        show outboxMaxProjectionAttempts ≤ failures' o.key
        have hmax : outboxMaxProjectionAttempts ≤ row.projectionAttempts + 1 := by
          by_contra hmax
          exact hq (if_neg hmax)
        rw [hwaiting.1]
        omega
      · rw [if_neg hwaiting] at hq ⊢
        exact (h.quarantined o ho hq).trans (hle o.key)

/-- The rows of the journal, and the rows passes have read, against the failures. -/
structure World.Counted (w : World) (failures : String × String → ℕ) : Prop where
  rows : w.journal.RowsCounted failures
  read : ∀ p ∈ w.passes, ∀ r ∈ p.rows, r.projectionAttempts ≤ failures r.key

/-- **Step.**  The count goes on with the failures the step records. -/
theorem World.Counted.step (h : w.Counted failures) (ha : a.Ordinary) :
    (w.step a).Counted fun key =>
      failures key + if w.RecordsFailure key a then 1 else 0 := by
  have hle : ∀ key, failures key ≤
      failures key + if w.RecordsFailure key a then 1 else 0 := fun key => Nat.le_add_right _ _
  constructor
  · rw [World.step_journal]
    cases htransaction : w.transaction a with
    | none => exact h.rows.mono rfl hle
    | some op =>
      refine Journal.step_of_run (P := fun j' => j'.RowsCounted fun key =>
        failures key + if w.RecordsFailure key a then 1 else 0) (h.rows.mono rfl hle)
        fun j' hrun => ?_
      refine h.rows.of_case (JournalOp.retryCase hrun
        (World.transaction_ordinary htransaction ha)) hle ?_
      rintro row error now retryAt rfl
      obtain ⟨p, hp, hrow⟩ := World.transaction_failure htransaction
      obtain ⟨v, hv⟩ := Tx.committed_eq_ok.mp hrun
      have hrecords : w.RecordsFailure row.key a := by
        unfold World.RecordsFailure
        rw [htransaction]
        exact ⟨rfl, by rw [hv]; rfl⟩
      refine ⟨h.read p hp row hrow, ?_⟩
      rw [if_pos hrecords]
  · intro p' hp' r hr
    rcases World.step_pass_rows hp' hr with ⟨p, hp, hrow⟩ | ⟨hmem, hpending⟩
    · exact (h.read p hp r hrow).trans (hle r.key)
    · exact (h.rows.pending r hmem hpending).trans (hle r.key)

/-- **Run.**  The count at the end of a run of ordinary actions. -/
theorem World.Counted.run {actions : List Action} (hordinary : ∀ a ∈ actions, a.Ordinary) :
    ∀ {w : World} {failures : String × String → ℕ}, w.Counted failures →
      (Machine.run World.step w actions).Counted fun key =>
        failures key + Machine.count World.step (World.RecordsFailure key) w actions := by
  induction actions with
  | nil => exact fun h => h
  | cons a actions ih =>
    intro w failures h
    have hstep := h.step (hordinary a List.mem_cons_self)
    have hrest := ih (fun b hb => hordinary b (List.mem_cons_of_mem a hb)) hstep
    simp only [Nat.add_assoc] at hrest
    exact hrest

theorem World.Counted.fresh : World.fresh.Counted fun _ => 0 where
  rows := ⟨fun _ ho => absurd ho (Table.notMem_empty _),
    fun _ ho => absurd ho (Table.notMem_empty _), fun _ ho => absurd ho (Table.notMem_empty _)⟩
  read _ hp := absurd hp List.not_mem_nil

/-- **Run.**  In every run of ordinary actions rows are quarantined in time. -/
theorem World.quarantinedInTime {actions : List Action}
    (hordinary : ∀ a ∈ actions, a.Ordinary) : World.QuarantinedInTime actions := by
  have h := World.Counted.fresh.run hordinary
  intro o ho
  refine ⟨h.rows.exclusive o ho, fun hq => ?_⟩
  simpa using h.rows.quarantined o ho hq

/-! ### The record of one step -/

theorem TerminalOutboxRow.quarantineItemId_of_key (h : o.key = o'.key) :
    o.quarantineItemId = o'.quarantineItemId := by
  have hattempt : o.attemptId = o'.attemptId := congrArg Prod.fst h
  have htransition : o.transitionId = o'.transitionId := congrArg Prod.snd h
  unfold TerminalOutboxRow.quarantineItemId
  rw [hattempt, htransition]

theorem TerminalOutboxRow.key_of_quarantineItemId (ho : ':' ∉ o.attemptId.toList)
    (ho' : ':' ∉ o'.attemptId.toList) (h : o.quarantineItemId = o'.quarantineItemId) :
    o.key = o'.key := by
  have hlist : o.attemptId.toList ++ ':' :: o.transitionId.toList =
      o'.attemptId.toList ++ ':' :: o'.transitionId.toList := by
    have htoList := congrArg String.toList h
    unfold TerminalOutboxRow.quarantineItemId at htoList
    generalize "goalflight:outbox-quarantine:" = start at htoList
    simp only [String.toList_append, List.append_assoc] at htoList
    exact List.append_cancel_left htoList
  obtain ⟨hattempt, htransition⟩ := Joined.append_cons_injective ho ho' hlist
  exact Prod.ext (String.toList_inj.mp hattempt) (String.toList_inj.mp htransition)

/-- What the steps before leave behind: ids as they should be, every item about a row, and
every open one about a quarantined row. -/
structure Journal.ItemsKept (j : Journal) : Prop where
  ids : ∀ o ∈ j.outbox, ':' ∉ o.attemptId.toList
  named : ∀ a ∈ j.systemAttention, a.itemType = outboxQuarantined →
    ∃ o ∈ j.outbox, a.itemId = o.quarantineItemId
  opened : ∀ o ∈ j.outbox, j.QuarantineOpen o → o.projectionQuarantinedAt ≠ none

/-- No count of a row goes down, and every open item is about a quarantined row. -/
def Journal.KeepsRecord (j j' : Journal) : Prop :=
  (∀ o ∈ j.outbox.rows, ∃ o' ∈ j'.outbox.rows,
    o'.key = o.key ∧ o.projectionAttempts ≤ o'.projectionAttempts) ∧
  ∀ o ∈ j'.outbox.rows, j'.QuarantineOpen o → o.projectionQuarantinedAt ≠ none

/-- An open item after the transaction was open before, when items only came from there. -/
theorem Journal.ItemsFrom.open (h : j.ItemsFrom j') (ho : j'.QuarantineOpen o) :
    j.QuarantineOpen o := by
  obtain ⟨a, ha, htype, hid, hopen⟩ := ho
  obtain ⟨b, hb, htype', hid', hopen'⟩ := h a ha htype
  exact ⟨b, hb, htype', hid'.trans hid, hopen' hopen⟩

theorem Journal.ItemsKept.of_items (h : j.ItemsKept)
    (hids : ∀ o ∈ j'.outbox, ':' ∉ o.attemptId.toList) (hitems : j.ItemsFrom j')
    (hrows : ∀ o ∈ j.outbox, ∃ o' ∈ j'.outbox, o'.key = o.key)
    (hopened : ∀ o ∈ j'.outbox, j'.QuarantineOpen o → o.projectionQuarantinedAt ≠ none) :
    j'.ItemsKept where
  ids := hids
  named a ha htype := by
    obtain ⟨b, hb, htype', hid, -⟩ := hitems a ha htype
    obtain ⟨o, ho, hname⟩ := h.named b hb htype'
    obtain ⟨o', ho', hkey⟩ := hrows o ho
    refine ⟨o', ho', ?_⟩
    rw [← hid, hname, TerminalOutboxRow.quarantineItemId_of_key hkey]
  opened := hopened

theorem OutboxTable.exists_key_of_mem_modifyWhere {p : TerminalOutboxRow → Prop}
    [DecidablePred p] {projectedAt : TerminalOutboxRow → Option Timestamp} {attempts : ℕ}
    {error : Option String} {retryAt quarantinedAt : Option Timestamp}
    (ho' : o' ∈ t.modifyWhere p projectedAt attempts error retryAt quarantinedAt) :
    ∃ o ∈ t, o'.key = o.key ∧ (p o ∧ o'.projectionQuarantinedAt = quarantinedAt ∨
      ¬ p o ∧ o' = o) := by
  obtain ⟨o, ho, rfl⟩ := Table.exists_of_mem ho' rfl
  refine ⟨o, ho, ?_⟩
  split
  · exact ⟨rfl, .inl ⟨‹_›, rfl⟩⟩
  · exact ⟨rfl, .inr ⟨‹_›, rfl⟩⟩

theorem Journal.QuarantineOpen.of_key (h : j.QuarantineOpen o) (hkey : o.key = o'.key) :
    j.QuarantineOpen o' := by
  obtain ⟨a, ha, htype, hid, hopen⟩ := h
  exact ⟨a, ha, htype, hid.trans (TerminalOutboxRow.quarantineItemId_of_key hkey), hopen⟩

theorem Journal.ItemsKept.aside (h : j.ItemsKept) (houtbox : j'.outbox = j.outbox)
    (hitems : j.ItemsFrom j') :
    j.KeepsRecord j' ∧ j'.ItemsKept := by
  have hopened : ∀ o ∈ j'.outbox, j'.QuarantineOpen o → o.projectionQuarantinedAt ≠ none := by
    intro o ho hopen
    exact h.opened o (houtbox ▸ ho) (hitems.open hopen)
  refine ⟨⟨fun o ho => ⟨o, ?_, rfl, le_refl _⟩, hopened⟩, h.of_items ?_ hitems ?_ hopened⟩
  · rw [houtbox]
    exact ho
  · rw [houtbox]
    exact h.ids
  · rw [houtbox]
    exact fun o ho => ⟨o, ho, rfl⟩

theorem Journal.ItemsKept.inserts {q : TerminalRequest} (h : j.ItemsKept)
    (hid : ':' ∉ q.attemptId.toList) (hinsert : j.outbox.insert? o = some j'.outbox)
    (hfresh : o.New q) (hitems : j'.systemAttention = j.systemAttention) :
    j.KeepsRecord j' ∧ j'.ItemsKept := by
  have hrows : ∀ m ∈ j'.outbox, m ∈ j.outbox ∨ m = o := fun m hm =>
    (Table.mem_of_insert? hinsert).mp hm
  have hold : ∀ m ∈ j.outbox, m ∈ j'.outbox := fun m hm =>
    (Table.mem_of_insert? hinsert).mpr (.inl hm)
  have hnew : ':' ∉ o.attemptId.toList := by rwa [hfresh.attemptId]
  have hfrom := Journal.ItemsFrom.of_eq hitems
  have hopened : ∀ m ∈ j'.outbox, j'.QuarantineOpen m → m.projectionQuarantinedAt ≠ none := by
    intro m hm hopen
    rcases hrows m hm with hmem | rfl
    · exact h.opened m hmem (hfrom.open hopen)
    · -- An item of that name would be about a row that was there before.
      obtain ⟨a, ha, htype, hname, -⟩ := hfrom.open hopen
      obtain ⟨o', ho', hname'⟩ := h.named a ha htype
      have hkey := TerminalOutboxRow.key_of_quarantineItemId (h.ids o' ho') hnew
        (hname'.symm.trans hname)
      exact absurd hkey ((Table.insert?_eq_some hinsert).1 o' ho').key
  refine ⟨⟨fun m hm => ⟨m, hold m hm, rfl, le_refl _⟩, hopened⟩,
    h.of_items (fun m hm => ?_) hfrom (fun m hm => ⟨m, hold m hm, rfl⟩) hopened⟩
  rcases hrows m hm with hmem | rfl
  · exact h.ids m hmem
  · exact hnew

theorem Journal.ItemsKept.marks (h : j.ItemsKept)
    (houtbox : j'.outbox = j.outbox.modifyWhere (fun o => o.key = row.key)
      (fun _ => some now) (row.projectionAttempts + 1) none none none)
    (hitems : j'.systemAttention = j.systemAttention) :
    (j.KeepsRecord j' ↔ (JournalOp.markOutboxProjected row now).UpToDate j) ∧
      ((JournalOp.markOutboxProjected row now).UpToDate j → j'.ItemsKept) := by
  have hfrom := Journal.ItemsFrom.of_eq hitems
  have hopened : (∀ o ∈ j.outbox, o.key = row.key → ¬ j.QuarantineOpen o) →
      ∀ o ∈ j'.outbox, j'.QuarantineOpen o → o.projectionQuarantinedAt ≠ none := by
    intro hclosed o' ho' hopen
    rw [houtbox] at ho'
    obtain ⟨o, ho, hkey, ⟨hrow, -⟩ | ⟨-, rfl⟩⟩ := OutboxTable.exists_key_of_mem_modifyWhere ho'
    · exact absurd ((hfrom.open hopen).of_key hkey) (hclosed o ho hrow)
    · exact h.opened o' ho (hfrom.open hopen)
  have hcounts : (∀ o ∈ j.outbox.rows, ∃ o' ∈ j'.outbox.rows,
      o'.key = o.key ∧ o.projectionAttempts ≤ o'.projectionAttempts) ↔
      ∀ o ∈ j.outbox.rows, o.key = row.key →
        o.projectionAttempts ≤ row.projectionAttempts + 1 := by
    rw [houtbox]
    exact OutboxTable.modifyWhere_keeps_iff
  refine ⟨⟨fun ⟨hfirst, hlast⟩ o ho hkey => ⟨hcounts.mp hfirst o ho hkey, fun hopen => ?_⟩,
    fun hup => ⟨hcounts.mpr fun o ho hkey => (hup o ho hkey).1,
      hopened fun o ho hkey => (hup o ho hkey).2⟩⟩, fun hup => h.of_items ?_ hfrom ?_ ?_⟩
  · -- The projected row is quarantined no more.
    have hmem : ({ o with
        projectedAt := some now
        projectionAttempts := row.projectionAttempts + 1
        projectionError := none
        projectionRetryAt := none
        projectionQuarantinedAt := none } : TerminalOutboxRow) ∈ j'.outbox := by
      rw [houtbox]
      exact Table.mem_update.mpr ⟨o, ho, if_pos hkey⟩
    refine hlast _ hmem ?_ rfl
    obtain ⟨a, ha, hrest⟩ := hopen
    exact ⟨a, by rwa [hitems], hrest⟩
  · intro o' ho'
    rw [houtbox] at ho'
    obtain ⟨o, ho, hkey, -⟩ := OutboxTable.exists_key_of_mem_modifyWhere ho'
    rw [show o'.attemptId = o.attemptId from congrArg Prod.fst hkey]
    exact h.ids o ho
  · intro o ho
    have hmem : ∃ o' ∈ j'.outbox, o'.key = o.key ∧ o'.event = o.event := by
      rw [houtbox]
      exact exists_mem_modifyWhere ho
    obtain ⟨o', ho', hkey, -⟩ := hmem
    exact ⟨o', ho', hkey⟩
  · exact hopened fun o ho hkey => (hup o ho hkey).2

theorem Journal.ItemsKept.fails {retry : Option Timestamp} (h : j.ItemsKept)
    (hpending : ∃ o ∈ j.outbox, o.key = row.key ∧ o.Pending)
    (houtbox : j'.outbox = j.outbox.modifyWhere (fun o => o.key = row.key ∧ o.Pending)
      TerminalOutboxRow.projectedAt (row.projectionAttempts + 1) (some error) retry
      (row.quarantineTime now))
    (hitems : ∀ a ∈ j'.systemAttention.rows, a ∈ j.systemAttention.rows ∨
      row.quarantineTime now ≠ none ∧ a.itemId = row.quarantineItemId) :
    (j.KeepsRecord j' ↔
        (JournalOp.recordOutboxProjectionFailure row error now retryAt).UpToDate j) ∧
      j'.ItemsKept := by
  obtain ⟨failed, hfailed, hfailedKey, hwaiting⟩ := hpending
  have hids : ∀ o' ∈ j'.outbox, ':' ∉ o'.attemptId.toList := by
    intro o' ho'
    rw [houtbox] at ho'
    obtain ⟨o, ho, hkey, -⟩ := OutboxTable.exists_key_of_mem_modifyWhere ho'
    rw [show o'.attemptId = o.attemptId from congrArg Prod.fst hkey]
    exact h.ids o ho
  have hopened : ∀ o ∈ j'.outbox, j'.QuarantineOpen o → o.projectionQuarantinedAt ≠ none := by
    intro o' ho' hopen
    have hid' := hids o' ho'
    rw [houtbox] at ho'
    obtain ⟨o, ho, hkey, hcase⟩ := OutboxTable.exists_key_of_mem_modifyWhere ho'
    obtain ⟨a, ha, htype, hname, hnone⟩ := hopen
    rcases hitems a ha with hold | ⟨hquarantined, hrow⟩
    · -- An item from before: its row was quarantined, so the failure left it alone.
      have hbefore : o.projectionQuarantinedAt ≠ none := h.opened o ho
        ⟨a, hold, htype, hname.trans (TerminalOutboxRow.quarantineItemId_of_key hkey), hnone⟩
      rcases hcase with ⟨⟨-, hwaits⟩, -⟩ | ⟨-, rfl⟩
      · exact absurd hwaits.2 hbefore
      · exact hbefore
    · -- The item of this failure: its row is the one that has just been quarantined.
      have hsame : o.key = failed.key := by
        refine hkey.symm.trans (TerminalOutboxRow.key_of_quarantineItemId hid'
          (h.ids failed hfailed) (hname.symm.trans (hrow.trans ?_)))
        exact TerminalOutboxRow.quarantineItemId_of_key hfailedKey.symm
      obtain rfl := OutboxTable.eq_of_key ho hfailed hsame
      rcases hcase with ⟨-, hq⟩ | ⟨hnot, -⟩
      · rw [hq]
        exact hquarantined
      · exact absurd ⟨hfailedKey, hwaiting⟩ hnot
  have hcounts : (∀ o ∈ j.outbox.rows, ∃ o' ∈ j'.outbox.rows,
      o'.key = o.key ∧ o.projectionAttempts ≤ o'.projectionAttempts) ↔
      ∀ o ∈ j.outbox.rows, o.key = row.key ∧ o.Pending →
        o.projectionAttempts ≤ row.projectionAttempts + 1 := by
    rw [houtbox]
    exact OutboxTable.modifyWhere_keeps_iff
  refine ⟨⟨fun ⟨hfirst, _⟩ o ho hkey hpending => hcounts.mp hfirst o ho ⟨hkey, hpending⟩,
    fun hup => ⟨hcounts.mpr fun o ho hrow => hup o ho hrow.1 hrow.2, hopened⟩⟩,
    hids, fun a ha htype => ?_, hopened⟩
  have hkept : ∀ o ∈ j.outbox, ∃ o' ∈ j'.outbox, o'.key = o.key := by
    intro o ho
    have hmem : ∃ o' ∈ j'.outbox, o'.key = o.key ∧ o'.event = o.event := by
      rw [houtbox]
      exact exists_mem_modifyWhere ho
    obtain ⟨o', ho', hkey, -⟩ := hmem
    exact ⟨o', ho', hkey⟩
  rcases hitems a ha with hold | ⟨-, hrow⟩
  · obtain ⟨o, ho, hname⟩ := h.named a hold htype
    obtain ⟨o', ho', hkey⟩ := hkept o ho
    exact ⟨o', ho', hname.trans (TerminalOutboxRow.quarantineItemId_of_key hkey.symm)⟩
  · obtain ⟨o', ho', hkey⟩ := hkept failed hfailed
    exact ⟨o', ho', hrow.trans
      (TerminalOutboxRow.quarantineItemId_of_key (hkey.trans hfailedKey).symm)⟩

/-- **Step.**  A committed transaction keeps the record exactly when it is up to date. -/
theorem Journal.ItemsKept.of_case (h : j.ItemsKept) (hordinary : op.Ordinary)
    (hcase : op.RetryCase j j') :
    (j.KeepsRecord j' ↔ op.UpToDate j) ∧ (op.UpToDate j → j'.ItemsKept) := by
  cases hcase with
  | aside houtbox hitems hup _ =>
    obtain ⟨hkeeps, hkept⟩ := h.aside houtbox hitems
    exact ⟨iff_of_true hkeeps hup, fun _ => hkept⟩
  | inserts q o hop hinsert hfresh hitems =>
    subst hop
    obtain ⟨hkeeps, hkept⟩ := h.inserts hordinary hinsert hfresh hitems
    exact ⟨iff_of_true hkeeps trivial, fun _ => hkept⟩
  | marks row now hop houtbox hitems =>
    subst hop
    exact h.marks houtbox hitems
  | fails row error now retryAt retry hop hpending houtbox hitems =>
    subst hop
    obtain ⟨hiff, hkept⟩ := h.fails hpending houtbox hitems
    exact ⟨hiff, fun _ => hkept⟩

theorem JournalOp.upToDate_of_error {e : Abort} (h : op.run j = .error e) : op.UpToDate j := by
  cases op with
  | markOutboxProjected row now =>
    intro o ho hkey
    have hsome : (j.outbox.find? fun o => o.key = row.key) ≠ none := fun hnone =>
      of_decide_eq_false (Table.find?_eq_none.mp hnone o ho) hkey
    obtain ⟨found, hfound⟩ := Option.ne_none_iff_exists'.mp hsome
    simp only [JournalOp.run, Journal.markOutboxProjected, hfound] at h
    cases h
  | recordOutboxProjectionFailure row error now retryAt =>
    intro o ho hkey hpending
    have hsome : (j.outbox.find? fun o => o.key = row.key ∧ o.Pending) ≠ none := fun hnone =>
      of_decide_eq_false (Table.find?_eq_none.mp hnone o ho) ⟨hkey, hpending⟩
    obtain ⟨found, hfound⟩ := Option.ne_none_iff_exists'.mp hsome
    simp only [JournalOp.run, Journal.recordOutboxProjectionFailure, hfound] at h
    split at h <;> cases h
  | _ => trivial

/-- **Step.**  A step of the world keeps the record exactly when it is up to date. -/
theorem World.keepsRecord_iff (h : w.journal.ItemsKept) (ha : a.Ordinary) :
    (w.KeepsRecord a ↔ w.UpToDate a) ∧ (w.UpToDate a → (w.step a).journal.ItemsKept) := by
  have hsame : w.journal.KeepsRecord w.journal ∧ w.journal.ItemsKept :=
    h.aside rfl (.of_eq rfl)
  show (w.journal.KeepsRecord (w.step a).journal ↔ w.UpToDate a) ∧ _
  rw [World.step_journal]
  unfold World.UpToDate
  cases htransaction : w.transaction a with
  | none =>
    refine ⟨iff_of_true hsame.1 fun op hop => ?_, fun _ => hsame.2⟩
    exact absurd hop (Option.not_mem_none op)
  | some op =>
    have hup : (∀ op' ∈ some op, op'.UpToDate w.journal) ↔ op.UpToDate w.journal :=
      ⟨fun h => h op rfl, fun h op' hop => Option.some.inj hop ▸ h⟩
    rw [hup]
    show (w.journal.KeepsRecord (w.journal.step op) ↔ _) ∧ (_ → (w.journal.step op).ItemsKept)
    unfold Journal.step
    split
    · rename_i j' hrun
      have hordinary := World.transaction_ordinary htransaction ha
      exact h.of_case hordinary (JournalOp.retryCase hrun hordinary)
    · rename_i e hrun
      exact ⟨iff_of_true hsame.1 (JournalOp.upToDate_of_error hrun), fun _ => hsame.2⟩

/-! ### Runs -/

theorem Journal.ItemsKept.fresh : Journal.fresh.ItemsKept where
  ids _ ho := absurd ho (Table.notMem_empty _)
  named _ ha := absurd ha (Table.notMem_empty _)
  opened _ ho := absurd ho (Table.notMem_empty _)

/-- **The retry record is honest exactly while passes are up to date.**  Over every
interleaving of passes with posts and the transactions of other writers: no count goes
down, a row is quarantined only after its failures and never while projected, and an item
about a quarantine is open only while the row is quarantined, if and only if no pass
writes back a count others have overtaken, and none records a success on a row whose
quarantine has an open item. -/
theorem retryRecord_honest_iff {actions : List Action}
    (hordinary : ∀ a ∈ actions, a.Ordinary) :
    World.RetryRecordHonest actions ↔
      Machine.Meets World.step World.UpToDate World.fresh actions := by
  have hkeeps : Machine.Meets World.step World.KeepsRecord World.fresh actions ↔
      Machine.Meets World.step World.UpToDate World.fresh actions := by
    have hstep : ∀ w : World, ∀ a ∈ actions, w.journal.ItemsKept →
        (w.KeepsRecord a ↔ w.UpToDate a) ∧ (w.UpToDate a → (w.step a).journal.ItemsKept) :=
      fun w a ha hw => World.keepsRecord_iff hw (hordinary a ha)
    exact Machine.meets_iff_of_invariant hstep Journal.ItemsKept.fresh
  refine ⟨fun h => hkeeps.mp h.1, fun h => ⟨hkeeps.mpr h, ?_⟩⟩
  rintro before after rfl
  exact World.quarantinedInTime fun a ha => hordinary a (List.mem_append_left after ha)

/-- The blocked verdict of one attempt, as the outbox has it after `attempts` failures. -/
def blockedRow (attempts : ℕ) (error : Option String) (retryAt : Option Timestamp) :
    TerminalOutboxRow :=
  ⟨"a1", "tr1", ⟨"node", "e1"⟩, "d", "blocked",
    ⟨"a1", "tr1", "d", "worker_dead", false, "gone"⟩, "t1", none, attempts, error, retryAt, none⟩

/-- The attempt of that verdict is prepared and ends. -/
def blockedVerdict : List Action :=
  [.journal (.prepareAttempt ⟨"d", none, none, none, true, none, none, none, none, "a1", "tok",
      "t0", "t9"⟩),
    .journal (.commitTerminal ⟨"a1", "worker_dead", "gone", none, none, false, "tr1",
      ⟨"node", "e1"⟩, "t1"⟩)]

/-- Two passes read the row; one fails, and the other succeeds after it. -/
theorem retryRecord_honest_overlap :
    World.RetryRecordHonest (blockedVerdict ++
      [.startPass [blockedRow 0 none none], .startPass [blockedRow 0 none none],
        .interruptPass 1 "e", .pass 1 "t2" "t3"] ++ List.replicate 8 (.pass 0 "t4" "t5")) :=
  (retryRecord_honest_iff (by simp [blockedVerdict, Action.Ordinary, JournalOp.Ordinary])).mpr
    (by decide +kernel)

/-- A pass reads the row and delivers slowly.  Three failures of other passes quarantine the
row meanwhile; then the first pass records its success: the count goes from 3 to 1, and
the item about the quarantine stays open. -/
theorem retryRecord_late_success :
    ¬ World.RetryRecordHonest (blockedVerdict ++
      [.startPass [blockedRow 0 none none],
        .startPass [blockedRow 0 none none], .interruptPass 1 "e", .pass 1 "t2" "t3",
        .startPass [blockedRow 1 (some "e") (some "t3")], .interruptPass 2 "e",
        .pass 2 "t4" "t5",
        .startPass [blockedRow 2 (some "e") (some "t5")], .interruptPass 3 "e",
        .pass 3 "t6" "t7"] ++ List.replicate 8 (.pass 0 "t8" "t9")) :=
  fun h => absurd h.1 (by decide +kernel)

end GoalFlight
