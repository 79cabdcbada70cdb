import GoalFlight.Journal.Peek
import GoalFlight.Projector.World

/-!
# Born read

An assignment is recorded before its carrier record is there to read, and becomes visible
in a later transaction.  A label that moved past its number in between never sees it.
`advance_cursor` looks at the rows in range and refuses to pass one that waits, but
`set_cursor` does not look, and a pass numbers its event in the carrier before there is a
row to look at.  `mail_notBornRead`: in a run where no assignment is recorded at or below
its label's cursor and no `set_cursor` passes one that waits, no row is born read.
-/

namespace GoalFlight

open Relational

variable {label : Label} {j j' : Journal}

/-- The label of a recipient that is not the wildcard. -/
def Recipient.label? : Recipient → Option Label
  | .wildcard => none
  | .label l => some l

theorem Recipient.label?_eq_some {recipient : Recipient} {l : Label} :
    recipient.label? = some l ↔ recipient = .label l := by
  cases recipient with
  | wildcard => simp [Recipient.label?]
  | label m => simp [Recipient.label?]

/-- The row is assigned to the label and waits for its carrier record. -/
structure DeliveryEvent.WaitsFor (r : DeliveryEvent) (label : Label) : Prop where
  recipient : r.recipient = .label label
  live : r.Live
  unprojected : ¬ r.Projected

instance (r : DeliveryEvent) (label : Label) : Decidable (r.WaitsFor label) :=
  decidable_of_iff (_ ∧ _ ∧ _) ⟨fun h => ⟨h.1, h.2.1, h.2.2⟩, fun h => ⟨h.1, h.2, h.3⟩⟩

theorem DeliveryEvent.WaitsFor.of_becomes {r r' : DeliveryEvent} (h : r'.WaitsFor label)
    (hbecomes : r.Becomes r') : r.WaitsFor label where
  recipient := by
    rcases hbecomes.recipient h.unprojected with heq | hwild
    · rw [← heq]
      exact h.recipient
    · rw [h.recipient] at hwild
      cases hwild
  live := by
    by_contra hdead
    exact hbecomes.withdrawn hdead h.live
  unprojected hprojected := h.unprojected (hbecomes.projected hprojected)

/-! ### What is claimed of a step -/

/-- `pending_delivery_events` returns the row, or as many rows as its `LIMIT` allows. -/
def Journal.Returns (j : Journal) (label : Label) (r : DeliveryEvent) : Prop :=
  ∀ limit rows, j.pendingDeliveryEvents label false [] limit = .ok rows →
    r ∈ rows ∨ rows.length = limit

/-- A row that became visible between two journals, and is live and addressed to a label,
is unread there and is returned as pending. -/
def BornUnread (j j' : Journal) : Prop :=
  ∀ r ∈ j.delivery, ∀ r' ∈ j'.delivery, r'.rowid = r.rowid → ¬ r.Projected → r'.Projected →
    r'.Live → ∀ label, r'.recipient = .label label →
      j'.position label r'.streamId < r'.streamSeq ∧ j'.Returns label r'

/-- The condition on a transaction: a new assignment to a label has a number beyond the
label's cursor, and `set_cursor` passes no row that waits for the label. -/
def JournalOp.StaysAhead (j : Journal) : JournalOp → Prop
  | .recordDeliveryEvent a _ fallback _ =>
    ∀ label ∈ (j.effectiveRecipient a.recipient fallback).label?,
      j.delivery.get? (.label label) a.event = none →
        j.position label a.streamId < a.streamSeq
  | .setCursor label positions _ _ =>
    ∀ p ∈ (j.cursorTargets label positions).rows, ∀ r ∈ j.delivery.rows,
      r.WaitsFor label → r.streamId = p.1 → p.2 < r.streamSeq
  | _ => True

instance (j : Journal) : DecidablePred (JournalOp.StaysAhead j) := fun op => by
  unfold JournalOp.StaysAhead
  split <;> infer_instance

/-- The condition on a step of the world. -/
def World.StaysAhead (w : World) (a : Action) : Prop :=
  ∀ op ∈ w.transaction a, op.StaysAhead w.journal

instance (w : World) (a : Action) : Decidable (w.StaysAhead a) := by
  unfold World.StaysAhead
  infer_instance

theorem Journal.Unread.returns {r : DeliveryEvent} (hr : r ∈ j.delivery)
    (h : j.Unread label r) : j.Returns label r := by
  intro limit rows hrows
  unfold Journal.pendingDeliveryEvents at hrows
  split at hrows
  · cases hrows
  · cases hrows
    rw [List.length_take]
    by_cases hlen : (j.delivery.rows.filter fun r => j.Pending label false r ∧
        (([] : List String) = [] ∨ r.streamId ∈ ([] : List String))).length ≤ limit
    · refine .inl ?_
      rw [List.take_of_length_le hlen, List.mem_filter]
      exact ⟨hr, decide_eq_true ⟨⟨h, by rintro ⟨⟩⟩, .inl rfl⟩⟩
    · refine .inr (Nat.min_eq_left ?_)
      omega

/-! ### The invariant -/

/-- No label has moved past a row that waits for it. -/
def Journal.Ahead (j : Journal) : Prop :=
  ∀ r ∈ j.delivery, ∀ label, r.WaitsFor label → j.position label r.streamId < r.streamSeq

theorem Journal.Ahead.of_matures (h : j.Ahead) (hrel : j.delivery.Matures j'.delivery)
    (hcursors : j'.streamCursors = j.streamCursors) :
    j'.Ahead := by
  intro r' hr' label hwaits
  rcases hrel.born r' hr' with ⟨r, hr, hbecomes⟩ | hprojected
  · obtain ⟨hstream, hseq⟩ := Prod.mk.injEq _ _ _ _ ▸ hbecomes.position
    have hahead := h r hr label (hwaits.of_becomes hbecomes)
    unfold Journal.position at hahead ⊢
    rw [hcursors, hstream, hseq]
    exact hahead
  · exact absurd hprojected hwaits.unprojected

theorem Journal.Ahead.of_write (h : j.Ahead) {generation version : ℕ} {advances : Dict ℕ}
    {actor : String} {now : Timestamp} {v : CursorWrite}
    (hwrite : j.writeCursorPositions label generation version advances actor now = .ok (v, j'))
    (hclear : ∀ p ∈ advances, ∀ r ∈ j.delivery, r.WaitsFor label → r.streamId = p.1 →
      p.2 < r.streamSeq) : j'.Ahead := by
  intro r' hr' l hwaits
  obtain ⟨r, hr, hbecomes, -⟩ := (writeCursorPositions_write hwrite).delivery.unmarked r' hr'
  obtain ⟨hstream, hseq⟩ := Prod.mk.injEq _ _ _ _ ▸ hbecomes.position
  have hwaited := hwaits.of_becomes hbecomes
  rw [hstream, hseq]
  rcases Journal.position_of_write hwrite l r.streamId with ⟨rfl, hp⟩ | hsame
  · exact hclear _ hp r hr hwaited rfl
  · rw [hsame]
    exact h r hr l hwaited

theorem Journal.Ahead.clear_of_checked (h : j.Ahead) {snapshots : Dict String} {p : String × ℕ}
    (hp : j.advanceRefusal label snapshots p = none) {r : DeliveryEvent} (hr : r ∈ j.delivery)
    (hwaits : r.WaitsFor label) (hstream : r.streamId = p.1) : p.2 < r.streamSeq := by
  by_contra hle
  have hahead := h r hr label hwaits
  rw [hstream] at hahead
  -- In range, so the check saw it, and the check wants every row in range projected.
  have hrange : r ∈ j.snapshotRows label p.1 p.2 false :=
    mem_snapshotRows.mpr ⟨hr, .inl hwaits.recipient, hstream, hwaits.live, hahead,
      not_lt.mp hle, by rintro ⟨⟩⟩
  exact hwaits.unprojected ((advanceRefusal_eq_none hp).1 r hrange)

theorem Journal.Ahead.of_record (h : j.Ahead) {a : Assignment}
    {replaces : List (Recipient × EventId)} {fallback : Bool} {now : Timestamp}
    {v : DeliveryEvent} (hrun : j.recordDeliveryEvent a replaces fallback now = .ok (v, j'))
    (hok : JournalOp.StaysAhead j (.recordDeliveryEvent a replaces fallback now)) :
    j'.Ahead := by
  have hcursors := (recordDeliveryEvent_write hrun).sameStreams.streamCursors
  intro r' hr' label hwaits
  unfold Journal.position
  rw [hcursors]
  rcases mem_of_recordDeliveryEvent hrun hr' with ⟨r, hr, hbecomes, -⟩ | ⟨⟨rowid, rfl⟩, hnone⟩
  · obtain ⟨hstream, hseq⟩ := Prod.mk.injEq _ _ _ _ ▸ hbecomes.position
    rw [hstream, hseq]
    exact h r hr label (hwaits.of_becomes hbecomes)
  · have hlabel : j.effectiveRecipient a.recipient fallback = .label label := hwaits.recipient
    rw [hlabel] at hnone
    exact hok label (Recipient.label?_eq_some.mpr hlabel) hnone

/-! ### One step -/

theorem BornUnread.of_unmarked
    (h : ∀ r' ∈ j'.delivery, r'.Projected → ∃ r ∈ j.delivery, r.rowid = r'.rowid ∧ r.Projected) :
    BornUnread j j' := by
  intro r hr r' hr' hid hnot hprojected
  obtain ⟨s, hs, hid', hs'⟩ := h r' hr' hprojected
  obtain rfl := DeliveryTable.eq_of_rowid hs hr (hid'.trans hid)
  exact absurd hs' hnot

theorem BornUnread.of_dims (h : j.delivery.Dims j'.delivery) :
    BornUnread j j' := by
  refine .of_unmarked fun r' hr' hprojected => ?_
  obtain ⟨r, hr, hbecomes, hsame⟩ := h.unmarked r' hr'
  exact ⟨r, hr, hbecomes.rowid.symm, hsame hprojected⟩

/-- Where no recipient changes and no cursor moves, a row that becomes visible was waiting
ahead of its label's cursor. -/
theorem BornUnread.of_spares (hahead : j.Ahead) (h : j.delivery.Spares j'.delivery)
    (hcursors : j'.streamCursors = j.streamCursors) :
    BornUnread j j' := by
  intro r hr r' hr' hid hnot hprojected hlive label hlabel
  obtain ⟨s, hs, hbecomes⟩ := h.kept r hr
  obtain rfl := DeliveryTable.eq_of_rowid hs hr' (hbecomes.rowid.trans hid.symm)
  have hwaits : r.WaitsFor label := by
    refine ⟨(h.addressed r hr s hs hid).symm.trans hlabel, ?_, hnot⟩
    by_contra hdead
    exact hbecomes.withdrawn hdead hlive
  obtain ⟨hstream, hseq⟩ := Prod.mk.injEq _ _ _ _ ▸ hbecomes.position
  have hbeyond : j'.position label s.streamId < s.streamSeq := by
    have hbefore := hahead r hr label hwaits
    unfold Journal.position at hbefore ⊢
    rw [hcursors, hstream, hseq]
    exact hbefore
  exact ⟨hbeyond, Journal.Unread.returns hs ⟨.inl hlabel, hprojected, hlive, hbeyond⟩⟩

/-- **One transaction.**  From a journal whose labels are ahead, a transaction that meets
the condition keeps them ahead and bears no row read. -/
theorem JournalOp.run_bornUnread {op : JournalOp} (hahead : j.Ahead) (hok : op.StaysAhead j)
    (h : op.run j = .ok j') : j'.Ahead ∧ BornUnread j j' := by
  have hrel := JournalOp.run_deliveryRel h
  cases op with
  | recordDeliveryEvent a replaces fallback now =>
    obtain ⟨v, hv⟩ := Tx.committed_eq_ok.mp h
    refine ⟨hahead.of_record hv hok, .of_unmarked fun r' hr' hprojected => ?_⟩
    rcases mem_of_recordDeliveryEvent hv hr' with ⟨r, hr, hbecomes, hsame⟩ | ⟨⟨_, rfl⟩, -⟩
    · exact ⟨r, hr, hbecomes.rowid.symm, hsame hprojected⟩
    · exact absurd rfl hprojected
  | setCursor label positions actor now =>
    obtain ⟨v, hv⟩ := Tx.committed_eq_ok.mp h
    obtain ⟨cursor, i, rfl, hwrite⟩ := setCursor_eq_ok hv
    have hgate : (j.ensureCursor label now).Ahead := hahead
    exact ⟨hgate.of_write hwrite hok, .of_dims hrel⟩
  | advanceCursor label nonce version snapshots advances actor allowNoLease now =>
    obtain ⟨v, hv⟩ := Tx.committed_eq_ok.mp h
    obtain ⟨cursor, i, hgate, hchecks, hwrite⟩ := advanceCursor_eq_ok hv
    have hi : i.Ahead := by
      rcases cursorGate_cases hgate with rfl | rfl
      · exact hahead
      · exact hahead
    refine ⟨hi.of_write hwrite fun p hp r hr hwaits hstream => ?_, .of_dims hrel⟩
    exact hi.clear_of_checked (hchecks p hp) hr hwaits hstream
  | withdrawDeliveryEvent =>
    exact ⟨hahead.of_matures hrel.toMatures (JournalOp.run_streamCursors h id), .of_dims hrel⟩
  | reconcileTerminalDeliveryRecipients =>
    exact ⟨hahead.of_matures hrel.toMatures (JournalOp.run_streamCursors h id), .of_dims hrel⟩
  | releaseLease =>
    exact ⟨hahead.of_matures hrel.toMatures (JournalOp.run_streamCursors h id), .of_dims hrel⟩
  | _ =>
    have hcursors := JournalOp.run_streamCursors h id
    exact ⟨hahead.of_matures hrel.toMatures hcursors, .of_spares hahead hrel hcursors⟩

theorem World.step_bornUnread (w : World) (a : Action) (hahead : w.journal.Ahead)
    (hok : w.StaysAhead a) :
    (w.step a).journal.Ahead ∧ BornUnread w.journal (w.step a).journal := by
  have hsame : BornUnread w.journal w.journal :=
    .of_dims (.refl w.journal.delivery)
  rw [World.step_journal]
  unfold World.StaysAhead at hok
  cases htx : w.transaction a with
  | none => exact ⟨hahead, hsame⟩
  | some op =>
    show (w.journal.step op).Ahead ∧ BornUnread w.journal (w.journal.step op)
    unfold Journal.step
    split
    · exact JournalOp.run_bornUnread hahead (hok op htx) ‹_›
    · exact ⟨hahead, hsame⟩

/-- **No event is born read.**  In every run whose steps record no assignment at or below
its label's cursor and set no cursor past a waiting row, every row that becomes visible to
a label is beyond the label's cursor, and is returned as pending. -/
theorem mail_notBornRead {actions : List Action}
    (h : Machine.Meets World.step World.StaysAhead World.fresh actions) :
    Machine.Meets World.step (fun w a => BornUnread w.journal (w.step a).journal) World.fresh
      actions := by
  have hfresh : World.fresh.journal.Ahead := fun r hr => absurd hr (Table.notMem_empty r)
  exact Machine.meets_of_invariant World.step_bornUnread hfresh h

/-- Two posts that a controller reads, draining its cursor in between. -/
theorem mail_notBornRead_drained :
    let post (id : String) : List Action :=
      .startPost ⟨"d", ⟨"node", id⟩, "result", .waking, "t1", none, [(.label "ctl", true)], []⟩ ::
        List.replicate 4 (.post 0 "t2")
    let actions : List Action :=
      .journal (.claimOrRenewLease ⟨"ctl", ⟨some 1, some "s", none⟩, some "n1", false, none, "f",
        "i", "t0", "t0", "t9"⟩) ::
        post "e1" ++ [.journal (.setCursor "ctl" none "ctl" "t3")] ++ post "e2"
    Machine.Meets World.step (fun w a => BornUnread w.journal (w.step a).journal) World.fresh
      actions :=
  mail_notBornRead (by decide +kernel)

/-- A run in which an event is born read.  A pass numbers its event 1 in the carrier and
has not recorded it yet.  A post on the same stream gets number 2 and completes; the
controller acknowledges it.  The pass then records and marks number 1. -/
theorem mail_bornRead :
    let row : TerminalOutboxRow := ⟨"a1", "tr1", ⟨"node", "e1"⟩, "d", "blocked",
      ⟨"a1", "tr1", "d", "worker_dead", false, "gone"⟩, "t1", none, 0, none, none, none⟩
    let actions : List Action :=
      [.journal (.prepareAttempt ⟨"d", none, none, none, true, none, none, none, none, "a1",
          "tok", "t0", "t9"⟩),
        .journal (.commitTerminal ⟨"a1", "worker_dead", "gone", none, none, false, "tr1",
          ⟨"node", "e1"⟩, "t1"⟩),
        .journal (.claimOrRenewLease ⟨"ctl", ⟨some 1, some "s", none⟩, some "n1", false, none,
          "f", "i", "t0", "t0", "t9"⟩),
        .startPass [row], .pass 0 "t2" "t3",
        .startPost ⟨"d", ⟨"node", "e2"⟩, "result", .waking, "t1", none, [(.label "ctl", true)],
          []⟩] ++ List.replicate 4 (.post 0 "t2") ++
      [.journal (.advanceCursor "ctl" (some "n1") 0 ⟨[("d", "1:1")], by simp⟩
          ⟨[("d", 2)], by simp⟩ "ctl" false "t3")] ++ List.replicate 3 (.pass 0 "t4" "t5")
    let w := Machine.run World.step World.fresh actions
    ¬ BornUnread w.journal (w.step (.pass 0 "t4" "t5")).journal := by
  intro row actions w hunread
  have hborn : ∃ r ∈ w.journal.delivery.rows,
      ∃ r' ∈ (w.step (.pass 0 "t4" "t5")).journal.delivery.rows, r'.rowid = r.rowid ∧
        ¬ r.Projected ∧ r'.Projected ∧ r'.Live ∧ r'.recipient = .label "ctl" ∧
        ¬ (w.step (.pass 0 "t4" "t5")).journal.position "ctl" r'.streamId < r'.streamSeq := by
    decide +kernel
  obtain ⟨r, hr, r', hr', hid, hnot, hprojected, hlive, hlabel, hbehind⟩ := hborn
  exact hbehind (hunread r hr r' hr' hid hnot hprojected hlive "ctl" hlabel).1

end GoalFlight
