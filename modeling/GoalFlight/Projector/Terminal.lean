import GoalFlight.Journal.Retirement
import GoalFlight.Journal.Verdict
import GoalFlight.Projector.World

/-!
# Terminal delivery

Once an outbox row is marked projected no pass looks at it again, so by then its event must have
reached somebody for good: a live projected row carries it, or a cursor was moved past one.  A
reconciliation withdraws every recipient but those its own pass marked, and a retirement withdraws
an assignment as a duplicate of a wildcard that may be no carrier of the event yet.
`terminalDelivery_notLost`: in a run where neither happens, no terminal delivery is lost.
-/

namespace GoalFlight

open Relational

variable {p : Pass} {w : World} {event : EventId} {j j' : Journal} {now : Timestamp}
  {r : DeliveryEvent} {row : TerminalOutboxRow}

/-- The row carries the event: it is projected and live, and no attention row, which the
resolution of its item withdraws. -/
structure DeliveryEvent.Delivers (r : DeliveryEvent) (event : EventId) : Prop where
  event : r.event = event
  projected : r.Projected
  live : r.Live
  mail : ¬ r.Attention

instance (r : DeliveryEvent) (event : EventId) : Decidable (r.Delivers event) :=
  decidable_of_iff (_ ∧ _ ∧ _ ∧ _)
    ⟨fun h => ⟨h.1, h.2.1, h.2.2.1, h.2.2.2⟩, fun h => ⟨h.1, h.2, h.3, h.4⟩⟩

theorem DeliveryEvent.Delivers.of_becomes {r' : DeliveryEvent} (h : r.Delivers event)
    (hbecomes : r.Becomes r') (hlive : r'.Live) : r'.Delivers event where
  event := hbecomes.event.trans h.event
  projected := hbecomes.projected h.projected
  live := hlive
  mail hattention := h.mail (hbecomes.eventType.symm.trans hattention)

/-- Some row carries the event, or a cursor was moved past one that did. -/
def World.Safe (w : World) (event : EventId) : Prop :=
  (∃ r ∈ w.journal.delivery, r.Delivers event) ∨ event ∈ w.consumed

/-- **Nothing is lost.**  Every event whose outbox row is marked projected has a projected
live row, or some cursor was moved past such a row. -/
def World.TerminalsDelivered (w : World) : Prop :=
  ∀ o ∈ w.journal.outbox.rows, o.projectedAt ≠ none →
    (∃ r ∈ w.journal.delivery.rows, r.event = o.event ∧ r.Projected ∧ r.Live) ∨
      o.event ∈ w.consumed

instance (w : World) : Decidable w.TerminalsDelivered := by
  unfold World.TerminalsDelivered
  infer_instance

/-! ### The two transactions that can lose an event -/

/-- The reconciliation keeps a row that carries the event. -/
def Journal.KeepsCarrier (j : Journal) (event : EventId) (actual : List Recipient) : Prop :=
  ∃ r ∈ j.delivery.rows, r.Delivers event ∧ j.Preserved event actual r.recipient

instance (j : Journal) (event : EventId) (actual : List Recipient) :
    Decidable (j.KeepsCarrier event actual) := by
  unfold Journal.KeepsCarrier
  infer_instance

/-- Whatever row of an outbox event the label's retirement withdraws as a duplicate, the
wildcard carries the event. -/
def Journal.RetiresCovered (j : Journal) (label : Label) : Prop :=
  ∀ o ∈ j.outbox.rows, ∀ r ∈ j.delivery.rows, r.Delivers o.event →
    j.RehomeCandidate label r → j.CarriedByWildcard r →
      ∃ s ∈ j.delivery.rows, s.recipient = .wildcard ∧ s.Delivers o.event

instance (j : Journal) (label : Label) : Decidable (j.RetiresCovered label) := by
  unfold Journal.RetiresCovered
  infer_instance

/-- The lease a transaction releases. -/
def JournalOp.retires : JournalOp → Option (Label × String)
  | .releaseLease label nonce .. => some (label, nonce)
  | _ => none

/-- The event a pass is about to reconcile, with the recipients it marked. -/
def World.reconciling (w : World) (i : ℕ) : Option (EventId × List Recipient) :=
  match w.passes[i]? with
  | some ⟨row :: _, .reconcile actual⟩ => some (row.event, actual)
  | _ => none

/-- The condition on a step: a reconciliation keeps a carrier of its event, unless the
event was consumed; a retirement covers what it withdraws; a post replaces nothing. -/
def World.Careful (w : World) : Action → Prop
  | .journal op => ∀ r ∈ op.retires, w.journal.HeldBy r.1 r.2 → w.journal.RetiresCovered r.1
  | .pass i _ _ => ∀ q ∈ w.reconciling i, w.journal.KeepsCarrier q.1 q.2 ∨ q.1 ∈ w.consumed
  | .startPost q => q.replaces = []
  | _ => True

instance : ∀ (w : World) (a : Action), Decidable (w.Careful a)
  | w, .journal op => inferInstanceAs (Decidable (∀ r ∈ op.retires,
      w.journal.HeldBy r.1 r.2 → w.journal.RetiresCovered r.1))
  | w, .pass i _ _ => inferInstanceAs (Decidable (∀ q ∈ w.reconciling i,
      w.journal.KeepsCarrier q.1 q.2 ∨ q.1 ∈ w.consumed))
  | _, .startPost q => inferInstanceAs (Decidable (q.replaces = []))
  | _, .startPass _ => isTrue trivial
  | _, .interruptPass .. => isTrue trivial
  | _, .crashPass _ => isTrue trivial
  | _, .post .. => isTrue trivial
  | _, .stopPost _ => isTrue trivial

/-! ### What keeps an event safe -/

/-- A commit keeps an event safe when every row that carries it leaves a carrier behind
or was moved past. -/
theorem World.Safe.commit (hsafe : w.Safe event)
    (h : ∀ r ∈ w.journal.delivery, r.Delivers event →
      (∃ r' ∈ j'.delivery, r'.Delivers event) ∨ MovedPast w.journal j' r) :
    (w.commit j').Safe event := by
  rcases hsafe with ⟨r, hr, hdelivers⟩ | hconsumed
  · rcases h r hr hdelivers with hcarrier | hpast
    · exact .inl hcarrier
    · refine .inr (List.mem_append_right _ ?_)
      rw [← hdelivers.event]
      exact List.mem_map_of_mem (List.mem_filter.mpr ⟨hr, decide_eq_true hpast⟩)
  · exact .inr (List.mem_append_left _ hconsumed)

theorem World.Safe.of_spared (hsafe : w.Safe event)
    (h : ∀ r ∈ w.journal.delivery, r.Live → ¬ r.Attention →
      ∃ r' ∈ j'.delivery, r.Becomes r' ∧ r'.Live) :
    (w.commit j').Safe event := by
  refine hsafe.commit fun r hr hdelivers => .inl ?_
  obtain ⟨r', hr', hbecomes, hlive⟩ := h r hr hdelivers.live hdelivers.mail
  exact ⟨r', hr', hdelivers.of_becomes hbecomes hlive⟩

theorem writeCursorPositions_keeps {label : Label} {generation version : ℕ} {advances : Dict ℕ}
    {actor : String} {v : CursorWrite}
    (h : j.writeCursorPositions label generation version advances actor now = .ok (v, j'))
    (hr : r ∈ j.delivery) : r ∈ j'.delivery ∨ MovedPast j j' r := by
  obtain ⟨delivery, n, cursors, hadopt, -, rfl⟩ := Journal.writeCursorPositions_eq_ok h
  by_cases hpast : ∃ p ∈ advances.rows, Adoptable p.1 (j.position label p.1) p.2 r
  · right
    obtain ⟨p, hp, hwild, hstream, hbeyond, hle, hprojected, hlive⟩ := hpast
    obtain ⟨c, hget, hposition⟩ := writeStreamCursors_get?_of_mem label now
      advances.pairwise hp j.streamCursors
    obtain ⟨hc, hkey⟩ := KeyedTable.get?_eq_some.mp hget
    obtain ⟨hlabel, hcstream⟩ := Prod.mk.injEq _ _ _ _ ▸ hkey
    refine ⟨hlive, hprojected, c, hc, .inr hwild, hcstream.trans hstream.symm, ?_, ?_⟩
    · rw [hlabel, hstream]
      exact hbeyond
    · rw [hposition]
      exact hle
  · left
    refine DeliveryTable.mem_adoptAll (fun p hp hadoptable => ?_) hadopt hr
    exact hpast ⟨p, hp, hadoptable⟩

theorem releaseLease_keeps_carrier {label : Label} {nonce reason : String}
    {v : ControllerLease} (h : j.releaseLease label nonce reason now = .ok (v, j'))
    (hcovered : j.HeldBy label nonce → j.RetiresCovered label) {o : TerminalOutboxRow}
    (ho : o ∈ j.outbox) (hr : r ∈ j.delivery) (hdelivers : r.Delivers o.event) :
    ∃ r' ∈ j'.delivery, r'.Delivers o.event := by
  obtain ⟨l, n, i, cursors, hl, hrehome, -, rfl⟩ := releaseLease_eq_ok h
  obtain ⟨_, rfl, moved, hmoved, rfl⟩ := Journal.rehomeRetiredDeliveryEvents_eq_ok hrehome
  show ∃ r' ∈ moved, r'.Delivers o.event
  by_cases hcand : j.RehomeCandidate label r
  · by_cases hcarried : j.CarriedByWildcard r
    · -- The duplicate is withdrawn; the wildcard that carries its event stays.
      have hheld : j.HeldBy label nonce := ⟨l, hl.1, hl.2.2.2, hl.2.1, hl.2.2.1⟩
      obtain ⟨s, hs, hwild, hcarrier⟩ := hcovered hheld o ho r hr hdelivers hcand hcarried
      refine ⟨s, mem_moved label now hmoved hs fun hsel => ?_, hcarrier⟩
      have hlabel := hsel.1
      rw [hwild] at hlabel
      cases hlabel
    · have hmem := relabel_mem_moved label now hmoved hr hcand hcarried
      exact ⟨_, hmem, hdelivers.event, hdelivers.projected, hdelivers.live, hdelivers.mail⟩
  · exact ⟨r, mem_moved label now hmoved hr hcand, hdelivers⟩

theorem mem_foldl_withdrawStale {stale : List Recipient}
    (h : ∀ recipient ∈ stale, ¬ (r.recipient = recipient ∧ r.event = event)) :
    ∀ {j : Journal}, r ∈ j.delivery →
      r ∈ (stale.foldl (Journal.withdrawStale event now) j).delivery := by
  induction stale with
  | nil =>
    intro j hr
    exact hr
  | cons recipient rest ih =>
    intro j hr
    refine ih (fun q hq => h q (List.mem_cons_of_mem _ hq)) ?_
    have hmem := Table.apply_mem (DeliveryTable.rows_withdrawWhere j.delivery
      (fun r => r.recipient = recipient ∧ r.event = event) now) hr
    rwa [if_neg (h recipient List.mem_cons_self)] at hmem

theorem mem_reconcile {actual : List Recipient} {v : List Recipient}
    (h : j.reconcileTerminalDeliveryRecipients event actual now = .ok (v, j'))
    (hr : r ∈ j.delivery) (hkept : r.event = event → j.Preserved event actual r.recipient) :
    r ∈ j'.delivery := by
  unfold Journal.reconcileTerminalDeliveryRecipients at h
  cases h
  refine mem_foldl_withdrawStale ?_ hr
  rintro recipient hmem ⟨rfl, hevent⟩
  obtain ⟨s, hs, hsame⟩ := List.mem_map.mp hmem
  have hstale : j.StaleRecipient event actual s := of_decide_eq_true (List.mem_filter.mp hs).2
  rw [← hsame] at hkept
  exact hstale.2.2 (hkept hevent)

theorem mem_recordDeliveryEvent {a : Assignment} {fallback : Bool} {v : DeliveryEvent}
    (h : j.recordDeliveryEvent a [] fallback now = .ok (v, j')) (hr : r ∈ j.delivery) :
    r ∈ j'.delivery := by
  have hmem := Table.apply_mem
    (DeliveryTable.rows_withdrawWhere j.delivery (Replaces []) now) hr
  rw [if_neg (by simp [Replaces])] at hmem
  unfold Journal.recordDeliveryEvent at h
  split at h
  · cases h
  split at h
  · cases h
  simp only at h
  split at h
  · split at h
    · cases h
      exact hmem
    · cases h
  · split at h
    · cases h
    · cases h
      exact (Table.mem_of_insert? ‹_›).mpr (.inl hmem)

/-! ### The invariant -/

/-- Every event the projector is done with, or about to be done with, is safe. -/
structure World.Terminals (w : World) : Prop where
  projected : ∀ o ∈ w.journal.outbox, o.projectedAt ≠ none → w.Safe o.event
  known : ∀ p ∈ w.passes, ∀ row ∈ p.rows,
    ∃ o ∈ w.journal.outbox, o.key = row.key ∧ o.event = row.event
  finishing : ∀ p ∈ w.passes, p.stage = .finish → ∀ row ∈ p.rows.head?, w.Safe row.event
  plain : ∀ p ∈ w.posts, p.request.replaces = []

/-- A commit that keeps outbox events safe and outbox rows, and projects safe ones. -/
structure World.CommitsSafely (w : World) (j' : Journal) : Prop where
  safe : ∀ o ∈ w.journal.outbox, w.Safe o.event → (w.commit j').Safe o.event
  kept : ∀ o ∈ w.journal.outbox, ∃ o' ∈ j'.outbox, o'.key = o.key ∧ o'.event = o.event
  projected : ∀ o' ∈ j'.outbox, o'.projectedAt ≠ none →
    ∃ o ∈ w.journal.outbox, o.event = o'.event ∧ (o.projectedAt ≠ none ∨ w.Safe o.event)

theorem World.CommitsSafely.of_outbox (houtbox : j'.outbox = w.journal.outbox)
    (hsafe : ∀ o ∈ w.journal.outbox, w.Safe o.event → (w.commit j').Safe o.event) :
    w.CommitsSafely j' where
  safe := hsafe
  kept o ho := ⟨o, houtbox ▸ ho, rfl, rfl⟩
  projected o ho hprojected := ⟨o, houtbox ▸ ho, rfl, .inl hprojected⟩

namespace World.Terminals

theorem commit (h : w.Terminals) (hc : w.CommitsSafely j') :
    (w.commit j').Terminals where
  projected o' ho' hprojected := by
    obtain ⟨o, ho, hevent, hold⟩ := hc.projected o' ho' hprojected
    rw [← hevent]
    rcases hold with hold | hsafe
    · exact hc.safe o ho (h.projected o ho hold)
    · exact hc.safe o ho hsafe
  known p hp row hrow := by
    obtain ⟨o, ho, hkey, hevent⟩ := h.known p hp row hrow
    obtain ⟨o', ho', hkey', hevent'⟩ := hc.kept o ho
    exact ⟨o', ho', hkey'.trans hkey, hevent'.trans hevent⟩
  finishing p hp hstage row hrow := by
    obtain ⟨o, ho, -, hevent⟩ := h.known p hp row (List.mem_of_mem_head? hrow)
    have hsafe := h.finishing p hp hstage row hrow
    rw [← hevent] at hsafe ⊢
    exact hc.safe o ho hsafe
  plain := h.plain

theorem setPass (h : w.Terminals) {p' : Pass} (hp : p ∈ w.passes)
    (hrows : ∀ row ∈ p'.rows, row ∈ p.rows)
    (hfinish : p'.stage = .finish → ∀ row ∈ p'.rows.head?, w.Safe row.event) (i : ℕ) :
    World.Terminals { w with passes := w.passes.set i p' } where
  projected := h.projected
  known q hq row hrow := by
    rcases List.mem_or_eq_of_mem_set hq with hq | rfl
    · exact h.known q hq row hrow
    · exact h.known p hp row (hrows row hrow)
  finishing q hq hstage row hrow := by
    rcases List.mem_or_eq_of_mem_set hq with hq | rfl
    · exact h.finishing q hq hstage row hrow
    · exact hfinish hstage row hrow
  plain := h.plain

theorem setPosts (h : w.Terminals) {posts : List Post}
    (hposts : ∀ p ∈ posts, p.request.replaces = []) :
    World.Terminals { w with posts := posts } :=
  { h with
    plain := hposts }

end World.Terminals

/-! ### One transaction -/

theorem World.CommitsSafely.of_spares (houtbox : j'.outbox = w.journal.outbox)
    (hspares : w.journal.delivery.Spares j'.delivery) : w.CommitsSafely j' :=
  .of_outbox houtbox fun _ _ hsafe => hsafe.of_spared hspares.spared

theorem commitTerminal_commitsSafely {q : TerminalRequest} {v : TerminalCommit}
    (h : w.journal.commitTerminal q = .ok (v, j')) :
    w.CommitsSafely j' := by
  have hspares := (commitTerminal_write h).spares
  obtain ⟨a, -, -, ⟨hwrite, -⟩ | ⟨t, -, -, hstanding⟩⟩ := commitTerminal_cases h
  · obtain ⟨-, -, -, -, hinsert⟩ := writeVerdict_eq_ok hwrite
    refine ⟨fun _ _ hsafe => hsafe.of_spared hspares.spared, fun o ho => ?_,
      fun o' ho' hprojected => ?_⟩
    · exact ⟨o, (Table.mem_of_insert? hinsert).mpr (.inl ho), rfl, rfl⟩
    · rcases (Table.mem_of_insert? hinsert).mp ho' with hold | rfl
      · exact ⟨o', hold, rfl, .inl hprojected⟩
      · exact absurd rfl hprojected
  · obtain ⟨rfl, -⟩ := standingVerdict_eq_ok hstanding
    exact .of_outbox rfl fun _ _ hsafe => hsafe.of_spared hspares.spared

theorem writeCursorPositions_commitsSafely {i : Journal} {label : Label}
    {generation version : ℕ} {advances : Dict ℕ} {actor : String} {v : CursorWrite}
    (hi : i = w.journal ∨ i = w.journal.ensureCursor label now)
    (h : i.writeCursorPositions label generation version advances actor now = .ok (v, j')) :
    w.CommitsSafely j' := by
  have hkeeps : ∀ r ∈ w.journal.delivery, r ∈ j'.delivery ∨ MovedPast w.journal j' r := by
    rcases hi with rfl | rfl
    · exact fun r hr => writeCursorPositions_keeps h hr
    · exact fun r hr => writeCursorPositions_keeps (j := w.journal.ensureCursor label now) h hr
  have houtbox : j'.outbox = w.journal.outbox := by
    obtain ⟨_, _, _, _, -, rfl⟩ := Journal.writeCursorPositions_eq_ok h
    rcases hi with rfl | rfl <;> rfl
  refine .of_outbox houtbox fun o _ hsafe => hsafe.commit fun r hr hdelivers => ?_
  rcases hkeeps r hr with hr' | hpast
  · exact .inl ⟨r, hr', hdelivers⟩
  · exact .inr hpast

theorem JournalOp.run_commitsSafely {op : JournalOp} (h : op.run w.journal = .ok j')
    (hindependent : op.independent = true) (hcareful : w.Careful (.journal op)) :
    w.CommitsSafely j' := by
  have hrel := JournalOp.run_deliveryRel h
  cases op with
  | commitTerminal request =>
    obtain ⟨v, hv⟩ := Tx.committed_eq_ok.mp h
    exact commitTerminal_commitsSafely hv
  | releaseLease label nonce reason now =>
    have houtbox := (JournalOp.run_sameStreams h id id).outbox
    obtain ⟨v, hv⟩ := Tx.committed_eq_ok.mp h
    have hcovered := hcareful (label, nonce) rfl
    refine .of_outbox houtbox fun o ho hsafe => hsafe.commit fun r hr hdelivers => ?_
    exact .inl (releaseLease_keeps_carrier hv hcovered ho hr hdelivers)
  | setCursor label positions actor now =>
    obtain ⟨v, hv⟩ := Tx.committed_eq_ok.mp h
    obtain ⟨cursor, i, hi, hwrite⟩ := setCursor_eq_ok hv
    exact writeCursorPositions_commitsSafely (.inr hi) hwrite
  | advanceCursor label nonce version snapshots advances actor allowNoLease now =>
    obtain ⟨v, hv⟩ := Tx.committed_eq_ok.mp h
    obtain ⟨cursor, i, hgate, -, hwrite⟩ := advanceCursor_eq_ok hv
    exact writeCursorPositions_commitsSafely (cursorGate_cases hgate) hwrite
  | recordDeliveryEvent => cases hindependent
  | markDeliveryProjected => cases hindependent
  | withdrawDeliveryEvent => cases hindependent
  | reconcileTerminalDeliveryRecipients => cases hindependent
  | markOutboxProjected => cases hindependent
  | recordOutboxProjectionFailure => cases hindependent
  | _ => exact .of_spares (JournalOp.run_sameStreams h id id).outbox hrel

theorem recordDeliveryEvent_commitsSafely {a : Assignment} {fallback : Bool}
    {v : DeliveryEvent} (h : w.journal.recordDeliveryEvent a [] fallback now = .ok (v, j')) :
    w.CommitsSafely j' := by
  refine .of_outbox (recordDeliveryEvent_write h).sameStreams.outbox
    fun _ _ hsafe => hsafe.of_spared fun r hr hlive _ => ?_
  exact ⟨r, mem_recordDeliveryEvent h hr, .refl r, hlive⟩

theorem markDeliveryProjected_commitsSafely {recipient : Recipient} {v : DeliveryProjection}
    (h : w.journal.markDeliveryProjected recipient event now = .ok (v, j')) :
    w.CommitsSafely j' :=
  .of_spares (markDeliveryProjected_write h).sameStreams.outbox
    (markDeliveryProjected_write h).delivery

section

variable {actual : List Recipient} {v : List Recipient}
  (h : w.journal.reconcileTerminalDeliveryRecipients event actual now = .ok (v, j'))
  (hkeeps : w.journal.KeepsCarrier event actual ∨ event ∈ w.consumed)
include h hkeeps

/-- A reconciliation that keeps a carrier of its event, or comes after a cursor moved past
one, leaves its event safe. -/
theorem reconcile_safe :
    (w.commit j').Safe event := by
  rcases hkeeps with ⟨r, hr, hdelivers, hpreserved⟩ | hconsumed
  · exact .inl ⟨r, mem_reconcile h hr fun _ => hpreserved, hdelivers⟩
  · exact .inr (List.mem_append_left _ hconsumed)

theorem reconcile_commitsSafely :
    w.CommitsSafely j' := by
  refine .of_outbox (reconcileTerminalDeliveryRecipients_write h).sameStreams.outbox
    fun o _ hsafe => ?_
  by_cases hevent : o.event = event
  · rw [hevent]
    exact reconcile_safe h hkeeps
  · -- Rows of other events are not touched.
    refine hsafe.commit fun r hr hdelivers => .inl ⟨r, mem_reconcile h hr ?_, hdelivers⟩
    intro hsame
    exact absurd (hdelivers.event.symm.trans hsame) hevent

end

theorem markOutboxProjected_commitsSafely {u : Unit}
    (h : w.journal.markOutboxProjected row now = .ok (u, j'))
    (hknown : ∃ o ∈ w.journal.outbox, o.key = row.key ∧ o.event = row.event)
    (hsafe : w.Safe row.event) : w.CommitsSafely j' := by
  unfold Journal.markOutboxProjected at h
  split at h
  · cases h
  · cases h
    refine ⟨fun _ _ hsafe => hsafe.commit fun r hr hdelivers => .inl ⟨r, hr, hdelivers⟩,
      fun o ho => exists_mem_modifyWhere ho, fun o' ho' hprojected => ?_⟩
    obtain ⟨o, ho, hevent, ⟨hkey, -⟩ | hsame⟩ := exists_of_mem_modifyWhere ho'
    · -- The row with the key is the one the pass read.
      obtain ⟨o₁, ho₁, hkey₁, hevent₁⟩ := hknown
      have hne := hkey₁.trans hkey.symm
      have heq : o₁ = o := Table.eq_of_not_compat ho₁ ho (fun hc => hc.key hne)
        (fun hc => hc.key hne.symm)
      subst heq
      refine ⟨o₁, ho, hevent.symm, .inr ?_⟩
      rw [hevent₁]
      exact hsafe
    · rw [hsame] at hprojected
      exact ⟨o, ho, hevent.symm, .inl hprojected⟩

theorem recordOutboxProjectionFailure_commitsSafely {error : String} {retryAt : Timestamp}
    {quarantined : Bool}
    (h : w.journal.recordOutboxProjectionFailure row error now retryAt =
      .ok (quarantined, j')) : w.CommitsSafely j' := by
  have hspares : w.journal.delivery.Spares j'.delivery := by
    obtain ⟨i, hi, hmail⟩ := recordOutboxProjectionFailure_write h
    exact hi.spares.trans hmail.delivery
  obtain ⟨retry, quarantine, i, rfl, hj'⟩ := recordOutboxProjectionFailure_eq_ok h
  have houtbox : j'.outbox = w.journal.outbox.modifyWhere
      (fun o => o.key = row.key ∧ o.Pending) TerminalOutboxRow.projectedAt
      (row.projectionAttempts + 1) (some error) retry quarantine := by
    rcases hj' with rfl | ⟨item, carrierPath, rfl⟩
    · rfl
    · exact (raiseSystemAttention_write _ item carrierPath now).sameStreams.outbox
  refine ⟨fun _ _ hsafe => hsafe.of_spared hspares.spared, fun o ho => ?_,
    fun o' ho' hprojected => ?_⟩
  · rw [houtbox]
    exact exists_mem_modifyWhere ho
  · rw [houtbox] at ho'
    obtain ⟨o, ho, hevent, hsame⟩ := exists_of_mem_modifyWhere ho'
    have heq : o'.projectedAt = o.projectedAt := hsame.elim And.right id
    rw [heq] at hprojected
    exact ⟨o, ho, hevent.symm, .inl hprojected⟩

/-! ### One stage -/

theorem Pass.next_rows (h : row ∈ p.next.rows) :
    row ∈ p.rows :=
  List.mem_of_mem_tail h

theorem Pass.interrupt_rows {error : String} (h : row ∈ (p.interrupt error).rows) :
    row ∈ p.rows := by
  unfold Pass.interrupt at h
  split at h
  · exact Pass.next_rows h
  · exact Pass.next_rows h
  · exact h

theorem Pass.interrupt_stage_ne (p : Pass) (error : String) :
    (p.interrupt error).stage ≠ .finish := by
  unfold Pass.interrupt
  split
  · exact PassStage.noConfusion
  · exact PassStage.noConfusion
  · exact PassStage.noConfusion

/-- What a stage of a pass has to leave behind. -/
structure World.PassGoesOn (w : World) (p : Pass) (r : World × Pass) : Prop where
  terminals : r.1.Terminals
  passes : r.1.passes = w.passes
  rows : ∀ row ∈ r.2.rows, row ∈ p.rows
  finish : r.2.stage = .finish → ∀ row ∈ r.2.rows.head?, r.1.Safe row.event

namespace World.PassGoesOn

theorem of_stage {w' : World} {p' : Pass} (hterminals : w'.Terminals)
    (hpasses : w'.passes = w.passes) (hrows : ∀ row ∈ p'.rows, row ∈ p.rows)
    (hstage : p'.stage ≠ .finish) : w.PassGoesOn p (w', p') :=
  ⟨hterminals, hpasses, hrows, fun h => absurd h hstage⟩

theorem interrupt (h : w.Terminals) (p : Pass) (error : String) :
    w.PassGoesOn p (w, p.interrupt error) :=
  of_stage h rfl (fun _ => Pass.interrupt_rows) (p.interrupt_stage_ne error)

theorem next {w' : World} (hterminals : w'.Terminals) (hpasses : w'.passes = w.passes) :
    w.PassGoesOn p (w', p.next) :=
  of_stage hterminals hpasses (fun _ => Pass.next_rows) PassStage.noConfusion

end World.PassGoesOn

/-- **Stages of a pass.** -/
theorem passStage_goesOn (h : w.Terminals) (hp : p ∈ w.passes) (hhead : row ∈ p.rows.head?)
    (hcareful : ∀ actual, p.stage = .reconcile actual →
      w.journal.KeepsCarrier row.event actual ∨ row.event ∈ w.consumed)
    (now retryAt : Timestamp) : w.PassGoesOn p (w.passStage p row now retryAt) := by
  unfold World.passStage
  split
  · -- append
    rename_i hstage
    split
    · exact .of_stage h rfl (fun _ => id) (by rw [hstage]; exact PassStage.noConfusion)
    · split
      · exact .interrupt h p _
      · exact .of_stage ⟨h.projected, h.known, h.finishing, h.plain⟩ rfl (fun _ => id)
          PassStage.noConfusion
  · split
    · exact .of_stage h rfl (fun _ => id) PassStage.noConfusion
    · exact .of_stage h rfl (fun _ => id) PassStage.noConfusion
  · exact .of_stage h rfl (fun _ => id) PassStage.noConfusion
  · exact .of_stage h rfl (fun _ => id) PassStage.noConfusion
  · split
    · exact .interrupt h p _
    · exact .of_stage (h.commit (recordDeliveryEvent_commitsSafely ‹_›)) rfl (fun _ => id)
        PassStage.noConfusion
  · split
    · exact .interrupt h p _
    · exact .of_stage (h.commit (markDeliveryProjected_commitsSafely ‹_›)) rfl (fun _ => id)
        PassStage.noConfusion
  · -- reconcile
    rename_i actual hstage
    have hkeeps := hcareful actual hstage
    split
    · exact .interrupt h p _
    · rename_i j' hreconcile
      refine ⟨h.commit (reconcile_commitsSafely hreconcile hkeeps), rfl, fun _ => id,
        fun _ row' hrow' => ?_⟩
      obtain rfl : row' = row := Option.mem_unique hrow' hhead
      exact reconcile_safe hreconcile hkeeps
  · -- finish
    rename_i hstage
    split
    · exact .next h rfl
    · rename_i hmark
      have hknown := h.known p hp row (List.mem_of_mem_head? hhead)
      have hsafe := h.finishing p hp hstage row hhead
      exact .next (h.commit (markOutboxProjected_commitsSafely hmark hknown hsafe)) rfl
  · split
    · exact .next h rfl
    · exact .next (h.commit (recordOutboxProjectionFailure_commitsSafely ‹_›)) rfl

/-- **Stages of a post** that replaces nothing. -/
theorem postStage_terminals (h : w.Terminals) {p : Post} (hplain : p.request.replaces = [])
    (now : Timestamp) :
    (w.postStage p now).1.Terminals ∧
      ∀ p' ∈ (w.postStage p now).2, p'.request.replaces = [] := by
  unfold World.postStage
  split
  · rw [hplain, ite_self]
    split
    · exact ⟨h, fun p' hp' => absurd hp' (Option.not_mem_none p')⟩
    · refine ⟨h.commit (recordDeliveryEvent_commitsSafely ‹_›), fun p' hp' => ?_⟩
      cases hp'
      exact hplain
  · refine ⟨?_, fun p' hp' => ?_⟩
    · split
      · exact h
      · exact ⟨h.projected, h.known, h.finishing, h.plain⟩
    · cases hp'
      exact hplain
  · split
    · exact ⟨h, fun p' hp' => absurd hp' (Option.not_mem_none p')⟩
    · refine ⟨h.commit (markDeliveryProjected_commitsSafely ‹_›), fun p' hp' => ?_⟩
      cases hp'
      exact hplain
  · exact ⟨h, fun p' hp' => absurd hp' (Option.not_mem_none p')⟩

/-! ### Runs -/

theorem World.Terminals.fresh : World.fresh.Terminals where
  projected _ ho := absurd ho (Table.notMem_empty _)
  known _ hp := absurd hp List.not_mem_nil
  finishing _ hp := absurd hp List.not_mem_nil
  plain _ hp := absurd hp List.not_mem_nil

/-- **Step.**  A careful step keeps every finished event safe. -/
theorem World.step_terminals {a : Action} (h : w.Terminals) (hcareful : w.Careful a) :
    (w.step a).Terminals := by
  unfold World.step
  cases a with
  | journal op =>
    show (if op.independent then w.commit (w.journal.step op) else w).Terminals
    split
    · rename_i hindependent
      refine Journal.step_of_run (P := fun j => (w.commit j).Terminals) ?_
        fun j' hrun => h.commit (JournalOp.run_commitsSafely hrun hindependent hcareful)
      -- An aborted transaction leaves the journal as it was.
      exact h.commit (.of_spares rfl (.refl _))
    · exact h
  | startPass rows =>
    show (if _ then _ else w : World).Terminals
    split
    · rename_i hrows
      refine ⟨h.projected, fun p hp row hrow => ?_, fun p hp hstage row hrow => ?_, h.plain⟩
      · rcases List.mem_append.mp hp with hp | hp
        · exact h.known p hp row hrow
        · rw [List.mem_singleton.mp hp] at hrow
          exact ⟨row, (hrows row hrow).1, rfl, rfl⟩
      · rcases List.mem_append.mp hp with hp | hp
        · exact h.finishing p hp hstage row hrow
        · rw [List.mem_singleton.mp hp] at hstage
          cases hstage
    · exact h
  | pass i now retryAt =>
    dsimp only
    split
    · exact h
    · rename_i p hget
      have hp : p ∈ w.passes := List.mem_of_getElem? hget
      split
      · exact h
      · rename_i row rest hrows
        have hgoes := passStage_goesOn h hp (show row ∈ p.rows.head? by rw [hrows]; rfl)
          (fun actual hstage => hcareful (row.event, actual) (by
            unfold World.reconciling
            obtain ⟨rows, stage⟩ := p
            cases hrows
            cases hstage
            rw [hget]
            rfl)) now retryAt
        have hset := hgoes.terminals.setPass (p := p) (by rw [hgoes.passes]; exact hp)
          hgoes.rows hgoes.finish i
        rwa [hgoes.passes] at hset
  | interruptPass i error =>
    dsimp only
    split
    · exact h
    · rename_i p hget
      exact h.setPass (List.mem_of_getElem? hget) (fun _ => Pass.interrupt_rows)
        (fun hstage => absurd hstage (p.interrupt_stage_ne error)) i
  | crashPass i =>
    refine ⟨h.projected, fun p hp => h.known p (List.mem_of_mem_eraseIdx hp),
      fun p hp => h.finishing p (List.mem_of_mem_eraseIdx hp), h.plain⟩
  | startPost q =>
    dsimp only
    split
    · exact h
    · rename_i p hopen
      have hrequest : p.request = q := by
        unfold World.openPost at hopen
        split at hopen
        · cases hopen
        · split at hopen
          · split at hopen
            · cases hopen
              rfl
            · cases hopen
          · cases hopen
            rfl
      refine h.setPosts fun p' hp' => ?_
      rcases List.mem_append.mp hp' with hp' | hp'
      · exact h.plain p' hp'
      · rw [List.mem_singleton.mp hp', hrequest]
        exact hcareful
  | post i now =>
    dsimp only
    split
    · exact h
    · rename_i p hget
      obtain ⟨hterminals, hplain⟩ :=
        postStage_terminals h (h.plain p (List.mem_of_getElem? hget)) now
      split
      · rename_i w' p' hstage
        rw [hstage] at hterminals hplain
        refine hterminals.setPosts fun q hq => ?_
        rcases List.mem_or_eq_of_mem_set hq with hq | rfl
        · exact h.plain q hq
        · exact hplain q rfl
      · rename_i w' hstage
        rw [hstage] at hterminals
        exact hterminals.setPosts fun q hq => h.plain q (List.mem_of_mem_eraseIdx hq)
  | stopPost i => exact h.setPosts fun q hq => h.plain q (List.mem_of_mem_eraseIdx hq)

/-- **Terminal delivery is not lost.**  In every run whose reconciliations keep a carrier of
their event, whose retirements cover what they withdraw and whose posts replace nothing,
every event the projector has finished with is delivered or consumed. -/
theorem terminalDelivery_notLost {actions : List Action}
    (h : Machine.Meets World.step World.Careful World.fresh actions) :
    (Machine.run World.step World.fresh actions).TerminalsDelivered := by
  have hinv : (Machine.run World.step World.fresh actions).Terminals :=
    Machine.run_invariant_of_meets (fun _ _ hw hok => World.step_terminals hw hok) .fresh h
  intro o ho hprojected
  rcases hinv.projected o ho hprojected with ⟨r, hr, hdelivers⟩ | hconsumed
  · exact .inl ⟨r, hr, hdelivers.event, hdelivers.projected, hdelivers.live⟩
  · exact .inr hconsumed

/-- One pass over one unowned event, with one controller on the roster. -/
theorem terminalDelivery_notLost_once :
    let event : EventId := ⟨"node", "e1"⟩
    let row : TerminalOutboxRow := ⟨"a1", "tr1", event, "d", "blocked",
      ⟨"a1", "tr1", "d", "worker_dead", false, "gone"⟩, "t1", none, 0, none, none, none⟩
    let actions : List Action :=
      [.journal (.prepareAttempt ⟨"d", none, none, none, true, none, none, none, none, "a1",
          "tok", "t0", "t9"⟩),
        .journal (.commitTerminal ⟨"a1", "worker_dead", "gone", none, none, false, "tr1", event,
          "t1"⟩),
        .journal (.claimOrRenewLease ⟨"ctl", ⟨some 1, some "s", none⟩, some "n1", false, none,
          "f", "i", "t0", "t0", "t9"⟩),
        .startPass [row]] ++ List.replicate 8 (.pass 0 "t2" "t3")
    (Machine.run World.step World.fresh actions).TerminalsDelivered :=
  terminalDelivery_notLost (by decide +kernel)

/-- A run that loses an event.  Controller `a` is on the roster; the first pass delivers to
it, reconciles and dies.  `a` expires, `b` claims; the second pass delivers to `b`,
withdraws the row of `a` and dies.  `b` expires, `a` claims again; the third pass is
handed the withdrawn row of `a`, marks it, withdraws the row of `b` and finishes. -/
theorem terminalDelivery_lost :
    let event : EventId := ⟨"node", "e1"⟩
    let row : TerminalOutboxRow := ⟨"a1", "tr1", event, "d", "blocked",
      ⟨"a1", "tr1", "d", "worker_dead", false, "gone"⟩, "t1", none, 0, none, none, none⟩
    let claim (label nonce : String) : Action := .journal (.claimOrRenewLease ⟨label,
      ⟨some 1, some "s", none⟩, some nonce, false, none, "f", "i", "t0", "t0", "t9"⟩)
    let expire (label nonce item : String) : Action :=
      .journal (.expireStaleLeases [⟨label, 1, nonce, "t0", item⟩] "t1")
    let pass (stages : ℕ) : List Action :=
      .startPass [row] :: List.replicate stages (.pass 0 "t2" "t3")
    let actions : List Action :=
      [.journal (.prepareAttempt ⟨"d", none, none, none, true, none, none, none, none, "a1",
          "tok", "t0", "t9"⟩),
        .journal (.commitTerminal ⟨"a1", "worker_dead", "gone", none, none, false, "tr1", event,
          "t1"⟩), claim "a" "n1"] ++ pass 7 ++
      [.crashPass 0, expire "a" "n1" "i1", claim "b" "n2"] ++ pass 7 ++
      [.crashPass 0, expire "b" "n2" "i2", claim "a" "n3"] ++ pass 8
    ¬ (Machine.run World.step World.fresh actions).TerminalsDelivered := by
  decide +kernel

end GoalFlight
