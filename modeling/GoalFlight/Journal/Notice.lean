import GoalFlight.Journal.Backlog

/-!
# Attention notices

A notice is a projected row on the `attention` stream.  Its position is one more than the
largest its *recipient* has on the stream, while a label has a single cursor on the
stream, for its own rows and the wildcard's together.  Consuming a wildcard notice moves
the cursor and renames the row, so the next wildcard is numbered as if there had been
none.

`attentionNotice_visible_iff` says for which labels a new notice is pending: those whose
cursor is not beyond every row the notice's recipient already has on the stream.
-/

namespace GoalFlight

open Relational

variable {j j' : Journal}

/-- The position is 0 or that of no row before a row of the recipient on the `attention`
stream, withdrawn ones included. -/
def Journal.WithinAttention (j : Journal) (recipient : Recipient) (position : ℕ) : Prop :=
  position = 0 ∨ ∃ s ∈ j.delivery, s.recipient = recipient ∧ s.streamId = "attention" ∧
    position ≤ s.streamSeq

instance (j : Journal) (recipient : Recipient) (position : ℕ) :
    Decidable (j.WithinAttention recipient position) := by
  unfold Journal.WithinAttention
  infer_instance

theorem Journal.lt_nextAttentionSeq_iff {recipient : Recipient} {n : ℕ} :
    n < j.nextAttentionSeq recipient ↔ j.WithinAttention recipient n := by
  unfold Journal.nextAttentionSeq Journal.WithinAttention
  rw [Nat.lt_succ_iff]
  constructor
  · intro hle
    cases hmax : ((j.delivery.rows.filter fun r =>
        r.recipient = recipient ∧ r.streamId = "attention").map DeliveryEvent.streamSeq).max? with
    | none =>
      rw [hmax] at hle
      exact .inl (Nat.le_zero.mp hle)
    | some m =>
      rw [hmax] at hle
      obtain ⟨s, hs, rfl⟩ := List.mem_map.mp (List.max?_mem hmax)
      obtain ⟨hs, hp⟩ := List.mem_filter.mp hs
      simp only [decide_eq_true_eq] at hp
      exact .inr ⟨s, hs, hp.1, hp.2, hle⟩
  · rintro (rfl | ⟨s, hs, hrecipient, hstream, hle⟩)
    · exact Nat.zero_le _
    · have hmem : s ∈ j.delivery.rows.filter fun r =>
          r.recipient = recipient ∧ r.streamId = "attention" :=
        List.mem_filter.mpr ⟨hs, by simp [hrecipient, hstream]⟩
      exact hle.trans (List.le_max?_getD_of_mem (List.mem_map_of_mem hmem))

theorem Journal.nextAttentionSeq_congr {i : Journal} {recipient : Recipient}
    (h : ∀ r, r.recipient = recipient → (r ∈ i.delivery ↔ r ∈ j.delivery)) :
    i.nextAttentionSeq recipient = j.nextAttentionSeq recipient := by
  refine eq_of_forall_lt_iff fun n => ?_
  rw [Journal.lt_nextAttentionSeq_iff, Journal.lt_nextAttentionSeq_iff]
  refine or_congr_right (exists_congr fun s => ?_)
  constructor
  · rintro ⟨hs, hrecipient, hrest⟩
    exact ⟨(h s hrecipient).mp hs, hrecipient, hrest⟩
  · rintro ⟨hs, hrecipient, hrest⟩
    exact ⟨(h s hrecipient).mpr hs, hrecipient, hrest⟩

/-- The row of a notice, as it is inserted into the journal. -/
structure Journal.NoticeRow (j : Journal) (r : DeliveryEvent) : Prop where
  projected : r.Projected
  live : r.Live
  stream : r.streamId = "attention"
  seq : r.streamSeq = j.nextAttentionSeq r.recipient

/-- **Notices.**  From `j` to `j'` the only change to what can be read is new notices, for
labels that had no open item and have one now; a label with an open item gets none. -/
structure Notices (j j' : Journal) : Prop where
  kept : ∀ r ∈ j.delivery, r ∈ j'.delivery
  new : ∀ r ∈ j'.delivery, r ∉ j.delivery → j.NoticeRow r ∧ ∃ label,
    r.recipient = .label label ∧ j.openAttentionGeneration label = none ∧
      j'.openAttentionGeneration label ≠ none
  opened : ∀ label, j.openAttentionGeneration label ≠ none →
    j'.openAttentionGeneration label ≠ none
  streams : j'.streamCursors = j.streamCursors

namespace Notices

theorem of_frame (hdelivery : j'.delivery = j.delivery)
    (hattention : j'.attention = j.attention) (hstreams : j'.streamCursors = j.streamCursors) :
    Notices j j' where
  kept r hr := by rwa [hdelivery]
  new r hr hnot := by
    rw [hdelivery] at hr
    exact absurd hr hnot
  opened label h := by
    unfold Journal.openAttentionGeneration
    rw [hattention]
    exact h
  streams := hstreams

theorem refl (j : Journal) : Notices j j := of_frame rfl rfl rfl

/-- A label that got a notice has an open item, so it gets no other: the second part
numbers its notices as the whole does. -/
theorem trans {j₁ j₂ j₃ : Journal} (h₁ : Notices j₁ j₂) (h₂ : Notices j₂ j₃) :
    Notices j₁ j₃ where
  kept r hr := h₂.kept r (h₁.kept r hr)
  new r hr hnot := by
    by_cases hmid : r ∈ j₂.delivery
    · obtain ⟨hrow, label, hrecipient, hnone, hsome⟩ := h₁.new r hmid hnot
      exact ⟨hrow, label, hrecipient, hnone, h₂.opened label hsome⟩
    · obtain ⟨hrow, label, hrecipient, hnone, hsome⟩ := h₂.new r hr hmid
      have hsame : j₂.nextAttentionSeq r.recipient = j₁.nextAttentionSeq r.recipient := by
        refine Journal.nextAttentionSeq_congr fun s hs => ⟨fun hs₂ => ?_, h₁.kept s⟩
        by_contra hs₁
        obtain ⟨-, label', hrecipient', -, hopen⟩ := h₁.new s hs₂ hs₁
        have heq : label' = label :=
          Recipient.label.inj (hrecipient'.symm.trans (hs.trans hrecipient))
        exact hopen (heq ▸ hnone)
      refine ⟨⟨hrow.projected, hrow.live, hrow.stream, hrow.seq.trans hsame⟩, label,
        hrecipient, ?_, hsome⟩
      by_contra hopen
      exact h₁.opened label hopen hnone
  opened label h := h₂.opened label (h₁.opened label h)
  streams := h₂.streams.trans h₁.streams

end Notices

/-! ### Orphaned-work notices -/

theorem Journal.openAttentionGeneration_ne_none_iff {label : Label} :
    j.openAttentionGeneration label ≠ none ↔
      ∃ a ∈ j.attention, a.sourceLabel = label ∧ a.Open := by
  unfold Journal.openAttentionGeneration
  rw [ne_eq, List.max?_eq_none_iff, List.map_eq_nil_iff, List.filter_eq_nil_iff]
  simp [Table.mem_def]

theorem materializeAttention_notices {label : Label} {generation : ℕ}
    {triggerSide : TriggerSide} {reason itemId : String} {now : Timestamp} {u : Unit}
    (h : j.materializeAttention label generation triggerSide reason itemId now = .ok (u, j'))
    (hopen : j.OneOpenAttention) : Notices j j' := by
  unfold Journal.materializeAttention at h
  split at h
  · cases h
    exact .refl j
  rw [hopen.collapse label now] at h
  simp only at h
  split at h
  · cases h
    exact .refl j
  rename_i hnone
  split at h
  · cases h
  rename_i attention hattention
  split at h
  · cases h
  rename_i delivery hdelivery
  cases h
  refine ⟨fun r hr => (Table.mem_of_insert? hdelivery).mpr (.inl hr), ?_, ?_, rfl⟩
  · intro r hr hnot
    rcases (Table.mem_of_insert? hdelivery).mp hr with hold | rfl
    · exact absurd hold hnot
    refine ⟨⟨by simp [attentionRow], rfl, rfl, rfl⟩, label, rfl, ?_, ?_⟩
    · by_contra hsome
      exact hnone (.inl (Option.isSome_iff_ne_none.mpr hsome))
    · exact Journal.openAttentionGeneration_ne_none_iff.mpr
        ⟨_, (Table.mem_of_insert? hattention).mpr (.inr rfl), rfl, rfl⟩
  · intro l hl
    obtain ⟨a, ha, hlabel, haopen⟩ := Journal.openAttentionGeneration_ne_none_iff.mp hl
    exact Journal.openAttentionGeneration_ne_none_iff.mpr
      ⟨a, (Table.mem_of_insert? hattention).mpr (.inl ha), hlabel, haopen⟩

theorem newGeneration_notices {c : LeaseClaim} {replaced : Option String} {v : ControllerLease}
    (h : j.newGeneration c replaced = .ok (v, j')) : Notices j j' := by
  unfold Journal.newGeneration at h
  simp only at h
  split at h
  · cases h
  · cases h
    exact .of_frame rfl rfl rfl

theorem leaseRules_notices : LeaseRules Journal.OneOpenAttention
    fun j j' => KeepsBacklog j j' ∧ Notices j j' where
  refl j := ⟨.refl j, .refl j⟩
  trans h₁ h₂ := ⟨h₁.1.trans h₂.1, h₁.2.trans h₂.2⟩
  keeps h := h.1.oneOpen
  attention hopen h :=
    ⟨materializeAttention_keepsBacklog h hopen, materializeAttention_notices h hopen⟩
  ended _ _ _ _ _ := ⟨leaseRules_keepsBacklog.ended .., .of_frame rfl rfl rfl⟩
  collapse j label now hopen := by
    rw [hopen.collapse label now]
    exact ⟨.refl j, .refl j⟩
  renewed _ p _ _ _ _ hp := ⟨leaseRules_keepsBacklog.renewed _ p _ _ _ hp, .of_frame rfl rfl rfl⟩
  new h := ⟨newGeneration_keepsBacklog h, newGeneration_notices h⟩
  exited _ p _ _ := ⟨leaseRules_keepsBacklog.exited _ p _, .of_frame rfl rfl rfl⟩

/-! ### Every notice -/

/-- The new rows are notices, and no cursor moves. -/
structure Announces (j j' : Journal) : Prop where
  new : ∀ r ∈ j'.delivery, r ∉ j.delivery → j.NoticeRow r
  streams : j'.streamCursors = j.streamCursors

theorem Notices.announces (h : Notices j j') : Announces j j' :=
  ⟨fun r hr hnot => (h.new r hr hnot).1, h.streams⟩

theorem raiseSystemAttention_announces (j : Journal) (item : SystemAttentionItem)
    (carrierPath : String) (now : Timestamp) :
    Announces j (j.raiseSystemAttention item carrierPath now) := by
  refine ⟨fun r hr hnot => ?_, (raiseSystemAttention_write j item carrierPath
    now).sameStreams.streamCursors⟩
  rcases raiseSystemAttention_delivery j item carrierPath now with hsame | hinsert
  · rw [hsame] at hr
    exact absurd hr hnot
  · rcases (Table.mem_of_insert? hinsert).mp hr with hold | rfl
    · exact absurd hold hnot
    · exact ⟨by simp [attentionRow], rfl, rfl, rfl⟩

/-- The transactions that post notices. -/
def JournalOp.PostsNotices : JournalOp → Prop
  | .expireStaleLeases .. => True
  | .claimOrRenewLease .. => True
  | .exitListener .. => True
  | .recordSystemAttention .. => True
  | .recordOutboxProjectionFailure .. => True
  | _ => False

/-- **Step.**  What a transaction that posts notices adds to the delivery rows are
notices. -/
theorem JournalOp.run_announces {op : JournalOp} (h : op.run j = .ok j')
    (hopen : j.OneOpenAttention) (hop : op.PostsNotices) : Announces j j' := by
  cases op with
  | expireStaleLeases provenDead endedAt =>
    obtain ⟨v, hv⟩ := Tx.committed_eq_ok.mp h
    exact (leaseRules_notices.expireStaleLeases hopen hv).2.announces
  | claimOrRenewLease claim =>
    obtain ⟨v, hv⟩ := Tx.committed_eq_ok.mp h
    exact (leaseRules_notices.claimOrRenewLease hopen hv).2.announces
  | exitListener coverageId reason itemId now =>
    obtain ⟨v, hv⟩ := Tx.committed_eq_ok.mp h
    exact (leaseRules_notices.exitListener hopen hv).2.announces
  | recordSystemAttention itemType reason dedupeNamespace dedupeKey dispatchId now =>
    obtain ⟨v, hv⟩ := Tx.committed_eq_ok.mp h
    obtain ⟨item, carrierPath, rfl⟩ := recordSystemAttention_eq_ok hv
    exact raiseSystemAttention_announces j item carrierPath now
  | recordOutboxProjectionFailure row error now retryAt =>
    obtain ⟨v, hv⟩ := Tx.committed_eq_ok.mp h
    obtain ⟨retry, quarantine, i, rfl, hj'⟩ := recordOutboxProjectionFailure_eq_ok hv
    rcases hj' with rfl | ⟨item, carrierPath, rfl⟩
    · exact ⟨fun r hr hnot => absurd hr hnot, rfl⟩
    · obtain ⟨hnew, hstreams⟩ := raiseSystemAttention_announces { j with
        outbox := j.outbox.modifyWhere (fun o => o.key = row.key ∧ o.Pending)
          TerminalOutboxRow.projectedAt (row.projectionAttempts + 1) (some error) retry
          quarantine } item carrierPath now
      refine ⟨fun r hr hnot => ?_, hstreams⟩
      obtain ⟨h₁, h₂, h₃, h₄⟩ := hnew r hr hnot
      exact ⟨h₁, h₂, h₃, h₄⟩
  | _ => exact hop.elim

theorem Journal.Reachable.oneOpen (h : j.Reachable) : j.OneOpenAttention := by
  obtain ⟨ops, rfl⟩ := h
  refine Machine.run_invariant (fun j op hj => ?_) Journal.OneOpenAttention.fresh ops
  exact Journal.step_of_run hj fun j' hrun => (JournalOp.run_counts hrun hj).1

/-- **A new notice.**  A row that a transaction posting notices has added to a reachable
journal is pending, right after the commit, for a label it addresses exactly when the
label's `attention` cursor is not beyond every row the recipient of the notice had on the
stream. -/
theorem attentionNotice_visible_iff {j j' : Journal} {op : JournalOp} (hj : j.Reachable)
    (hop : op.PostsNotices) (h : op.run j = .ok j') {r : DeliveryEvent}
    (hr : r ∈ j'.delivery) (hnew : ∀ s ∈ j.delivery, s.rowid ≠ r.rowid) {label : Label}
    (hto : r.AddressedTo label) :
    j'.Unread label r ↔ j.WithinAttention r.recipient (j.position label "attention") := by
  obtain ⟨hnotices, hstreams⟩ := JournalOp.run_announces h hj.oneOpen hop
  obtain ⟨hprojected, hlive, hstream, hseq⟩ := hnotices r hr fun hold => hnew r hold rfl
  have hposition : j'.position label r.streamId = j.position label "attention" := by
    rw [Journal.position, hstreams, hstream]
    rfl
  rw [← Journal.lt_nextAttentionSeq_iff, ← hseq, ← hposition]
  exact ⟨fun hunread => hunread.2.2.2, fun hbeyond => ⟨hto, hprojected, hlive, hbeyond⟩⟩

/-- A label that has consumed nothing sees an operator's notice. -/
theorem attentionNotice_visible_first :
    let j := Machine.run Journal.step Journal.fresh
      [.claimOrRenewLease ⟨"ctl", ⟨some 7, some "s7", none⟩, none, false, none, "u1", "i1",
        "t0", "t0", "t9"⟩]
    let op : JournalOp := .recordSystemAttention "hold" "unknown" "hold" "d1" "d1" "t1"
    ∃ j', op.run j = .ok j' ∧ ∃ r ∈ j'.delivery, j'.Unread "ctl" r := by
  intro j op
  have hrow : ∃ j', op.run j = .ok j' ∧ ∃ r ∈ j'.delivery,
      (∀ s ∈ j.delivery, s.rowid ≠ r.rowid) ∧ r.AddressedTo "ctl" ∧
        j.WithinAttention r.recipient (j.position "ctl" "attention") :=
    ⟨_, rfl, by decide +kernel⟩
  obtain ⟨j', hrun, r, hr, hnew, hto, hwithin⟩ := hrow
  have hop : op.PostsNotices := trivial
  exact ⟨j', hrun, r, hr, (attentionNotice_visible_iff ⟨_, rfl⟩ hop hrun hr hnew hto).mpr
    hwithin⟩

/-- The label consumes the notice, and the next one gets the same position: the label's
cursor is already there. -/
theorem attentionNotice_hidden_after_consume :
    let j := Machine.run Journal.step Journal.fresh
      [.claimOrRenewLease ⟨"ctl", ⟨some 7, some "s7", none⟩, none, false, none, "u1", "i1",
          "t0", "t0", "t9"⟩,
        .recordSystemAttention "hold" "unknown" "hold" "d1" "d1" "t1",
        .setCursor "ctl" none "ctl" "t2"]
    let op : JournalOp := .recordSystemAttention "hold" "unknown" "hold" "d2" "d2" "t3"
    ∃ j', op.run j = .ok j' ∧ ∃ r ∈ j'.delivery,
      (∀ s ∈ j.delivery, s.rowid ≠ r.rowid) ∧ r.AddressedTo "ctl" ∧ ¬ j'.Unread "ctl" r := by
  exact ⟨_, rfl, by decide +kernel⟩

end GoalFlight
