import GoalFlight.Journal.Operation

/-!
# Is there unread mail?

`controller_cursors.backlog_pending` caches the answer of `_label_has_unread_delivery`.
Every transaction that changes what a label can read has to write the answer again for
the labels it concerns.

Three transactions withdraw rows without doing so for everybody.

* `record_delivery_event` withdraws the assignments it replaces, and refreshes the
  recipient of the new one, or nobody when the event is already assigned.
* `release_lease` withdraws the retired label's rows a wildcard carries, and refreshes
  every label but that one.
* `resolve_system_attention` withdraws the events of what it resolves, and refreshes
  nobody.

`backlogPending_exact_iff` says that the column is exact throughout a run exactly when no
such withdrawal takes away the last unread row of a label it does not refresh.
-/

namespace GoalFlight

open Relational

variable {label : Label} {i j j' : Journal} {recipient : Recipient} {now : Timestamp}
  {actor reason : String} {event : EventId} {v : ControllerLease}

/-- **Exact.**  Every cursor's `backlog_pending` is what `_label_has_unread_delivery`
says. -/
def Journal.BacklogExact (j : Journal) : Prop :=
  ∀ c ∈ j.cursors, c.backlogPending = j.labelHasUnreadDelivery c.label

instance (j : Journal) : Decidable j.BacklogExact := by
  unfold Journal.BacklogExact
  infer_instance

/-! ### What a label has unread -/

@[simp] theorem Journal.labelHasUnreadDelivery_iff :
    j.labelHasUnreadDelivery label = true ↔ ∃ r ∈ j.delivery, j.Unread label r := by
  simp [Journal.labelHasUnreadDelivery, Table.mem_def]

theorem Journal.labelHasUnreadDelivery_congr (hdelivery : i.delivery = j.delivery)
    (hposition : ∀ stream, i.position label stream = j.position label stream) :
    i.labelHasUnreadDelivery label = j.labelHasUnreadDelivery label := by
  unfold Journal.labelHasUnreadDelivery
  rw [hdelivery]
  congr 1
  funext r
  simp [Journal.Unread, hposition]

theorem Journal.labelHasUnreadDelivery_map {f : DeliveryEvent → DeliveryEvent}
    (hrows : i.delivery.rows = j.delivery.rows.map f) :
    i.labelHasUnreadDelivery label = true ↔ ∃ r ∈ j.delivery, i.Unread label (f r) := by
  rw [Journal.labelHasUnreadDelivery_iff]
  constructor
  · rintro ⟨r', hr', hunread⟩
    obtain ⟨r, hr, rfl⟩ := Table.exists_of_mem hr' hrows
    exact ⟨r, hr, hunread⟩
  · rintro ⟨r, hr, hunread⟩
    exact ⟨f r, Table.apply_mem hrows hr, hunread⟩

/-- A label loses its unread mail to a withdrawal: it has some, and all of it is
withdrawn. -/
def Journal.LosesUnread (j : Journal) (p : DeliveryEvent → Prop) (label : Label) : Prop :=
  (∃ r ∈ j.delivery, j.Unread label r) ∧ ∀ r ∈ j.delivery, j.Unread label r → p r

/-- A change that leaves the label the unread rows without a property keeps the answer
unless the label loses its unread mail. -/
theorem Journal.labelHasUnreadDelivery_eq_iff {p : DeliveryEvent → Prop}
    (h : i.labelHasUnreadDelivery label = true ↔ ∃ r ∈ j.delivery, j.Unread label r ∧ ¬ p r) :
    i.labelHasUnreadDelivery label = j.labelHasUnreadDelivery label ↔
      ¬ j.LosesUnread p label := by
  rw [Bool.eq_iff_iff, h, Journal.labelHasUnreadDelivery_iff, Journal.LosesUnread]
  constructor
  · rintro hiff ⟨hsome, hall⟩
    obtain ⟨r, hr, hunread, hnot⟩ := hiff.mpr hsome
    exact hnot (hall r hr hunread)
  · intro hkept
    refine ⟨fun ⟨r, hr, hunread, _⟩ => ⟨r, hr, hunread⟩, fun hsome => ?_⟩
    by_contra hnone
    refine hkept ⟨hsome, fun r hr hunread => ?_⟩
    by_contra hnot
    exact hnone ⟨r, hr, hunread, hnot⟩

theorem Journal.labelHasUnreadDelivery_withdraw {p : DeliveryEvent → Prop} [DecidablePred p]
    (hdelivery : i.delivery = j.delivery.withdrawWhere p now)
    (hposition : ∀ stream, i.position label stream = j.position label stream) :
    i.labelHasUnreadDelivery label = true ↔
      ∃ r ∈ j.delivery, j.Unread label r ∧ ¬ p r := by
  rw [Journal.labelHasUnreadDelivery_iff]
  constructor
  · rintro ⟨r, hr, hto, hprojected, hlive, hbeyond⟩
    rw [hdelivery] at hr
    obtain ⟨hr', -, hnot⟩ := DeliveryTable.mem_withdrawWhere_live.mp ⟨hr, hlive⟩
    rw [hposition] at hbeyond
    exact ⟨r, hr', ⟨hto, hprojected, hlive, hbeyond⟩, hnot⟩
  · rintro ⟨r, hr, ⟨hto, hprojected, hlive, hbeyond⟩, hnot⟩
    obtain ⟨hr', -⟩ := DeliveryTable.mem_withdrawWhere_live.mpr ⟨hr, hlive, hnot⟩
    rw [← hdelivery] at hr'
    refine ⟨r, hr', hto, hprojected, hlive, ?_⟩
    rwa [hposition]

/-! ### Writing the answer -/

theorem Journal.backlogExact_iff (hj : j.BacklogExact) (hcursors : i.cursors = j.cursors) :
    i.BacklogExact ↔ ∀ c ∈ j.cursors,
      i.labelHasUnreadDelivery c.label = j.labelHasUnreadDelivery c.label := by
  unfold Journal.BacklogExact
  rw [hcursors]
  refine forall₂_congr fun c hc => ?_
  rw [hj c hc]
  exact eq_comm

/-- An invalidation keeps the column exact when no answer changes that it does not
write. -/
theorem Journal.backlogExact_invalidate_iff {ex : Option Label} (hj : j.BacklogExact)
    (hcursors : i.cursors = j.cursors)
    (hwritten : j'.cursors = i.invalidateDeliveryCursorSnapshots recipient now ex)
    (hsame : ∀ label, j'.labelHasUnreadDelivery label = i.labelHasUnreadDelivery label) :
    j'.BacklogExact ↔ ∀ c ∈ j.cursors, ¬ invalidates recipient ex c.label →
      i.labelHasUnreadDelivery c.label = j.labelHasUnreadDelivery c.label := by
  unfold Journal.BacklogExact
  rw [hwritten]
  constructor
  · intro h c hc hnot
    have hc' := h _ (Table.apply_mem (f := _) rfl (hcursors ▸ hc))
    rw [if_neg hnot, hsame] at hc'
    rw [← hc', hj c hc]
  · intro h c' hc'
    obtain ⟨c, hc, rfl⟩ := Table.exists_of_mem hc' rfl
    rw [hcursors] at hc
    split
    · exact (hsame c.label).symm
    · rw [hsame, h c hc ‹_›, hj c hc]

/-! ### One open item for a label -/

/-- A label has at most one open attention item.  Then there is no stale item, and a
collapse finds nothing to withdraw. -/
def Journal.OneOpenAttention (j : Journal) : Prop :=
  ∀ a ∈ j.attention, ∀ b ∈ j.attention, a.Open → b.Open → a.sourceLabel = b.sourceLabel →
    a.sourceGeneration = b.sourceGeneration

theorem Journal.OneOpenAttention.not_stale (h : j.OneOpenAttention) (label : Label)
    {a : AttentionItem} (ha : a ∈ j.attention) :
    ¬ j.StaleAttention label a := by
  rintro ⟨hlabel, hopen, hnewest⟩
  apply hnewest
  unfold Journal.openAttentionGeneration
  have hmem : a.sourceGeneration ∈ ((j.attention.rows.filter fun a =>
      a.sourceLabel = label ∧ a.Open).map AttentionItem.sourceGeneration) :=
    List.mem_map_of_mem (List.mem_filter.mpr ⟨ha, by simpa [hlabel] using hopen⟩)
  refine List.max?_eq_some_iff.mpr ⟨hmem, fun g hg => ?_⟩
  obtain ⟨b, hb, rfl⟩ := List.mem_map.mp hg
  obtain ⟨hb, hp⟩ := List.mem_filter.mp hb
  simp only [decide_eq_true_eq] at hp
  exact Nat.le_of_eq (h b hb a ha hp.2 hopen (hp.1.trans hlabel.symm))

theorem Journal.OneOpenAttention.collapse (h : j.OneOpenAttention) (label : Label)
    (now : Timestamp) : j.collapseOpenAttention label now = j := by
  have hattention : (j.collapseOpenAttention label now).attention = j.attention := by
    apply Table.ext
    show j.attention.rows.map _ = _
    refine (List.map_congr_left fun a ha => ?_).trans (List.map_id _)
    exact if_neg (h.not_stale label ha)
  have hdelivery : (j.collapseOpenAttention label now).delivery = j.delivery := by
    apply Table.ext
    show j.delivery.rows.map _ = _
    refine (List.map_congr_left fun r hr => ?_).trans (List.map_id _)
    refine if_neg ?_
    rintro ⟨-, a, ha, hstale, -⟩
    exact h.not_stale label ha hstale
  show { j with
    attention := (j.collapseOpenAttention label now).attention
    delivery := (j.collapseOpenAttention label now).delivery } = j
  rw [hattention, hdelivery]

/-- What a transaction that refreshes enough does: the labels keep at most one open item,
and the column stays exact. -/
structure KeepsBacklog (j j' : Journal) : Prop where
  oneOpen : j.OneOpenAttention → j'.OneOpenAttention
  exact : j.OneOpenAttention → j.BacklogExact → j'.BacklogExact

namespace KeepsBacklog

theorem refl (j : Journal) : KeepsBacklog j j := ⟨id, fun _ => id⟩

theorem trans {j₁ j₂ j₃ : Journal} (h₁ : KeepsBacklog j₁ j₂) (h₂ : KeepsBacklog j₂ j₃) :
    KeepsBacklog j₁ j₃ :=
  ⟨h₂.oneOpen ∘ h₁.oneOpen, fun hopen hj => h₂.exact (h₁.oneOpen hopen) (h₁.exact hopen hj)⟩

theorem of_frame (hattention : j'.attention = j.attention) (hcursors : j'.cursors = j.cursors)
    (hdelivery : j'.delivery = j.delivery) (hstreams : j'.streamCursors = j.streamCursors) :
    KeepsBacklog j j' := by
  refine ⟨fun h => ?_, fun _ hj => ?_⟩
  · rwa [Journal.OneOpenAttention, hattention]
  · refine (Journal.backlogExact_iff hj hcursors).mpr fun c _ => ?_
    refine Journal.labelHasUnreadDelivery_congr hdelivery fun stream => ?_
    rw [Journal.position, hstreams]
    rfl

theorem of_invalidate (hopen : j.OneOpenAttention → j'.OneOpenAttention)
    (hcursors : i.cursors = j.cursors)
    (hwritten : j'.cursors = i.invalidateDeliveryCursorSnapshots recipient now none)
    (hsame : ∀ label, j'.labelHasUnreadDelivery label = i.labelHasUnreadDelivery label)
    (hother : ∀ label, recipient ≠ .wildcard → recipient ≠ .label label →
      i.labelHasUnreadDelivery label = j.labelHasUnreadDelivery label) :
    KeepsBacklog j j' := by
  refine ⟨hopen, fun _ hj => ?_⟩
  refine (Journal.backlogExact_invalidate_iff hj hcursors hwritten hsame).mpr fun c _ hnot => ?_
  refine hother c.label (fun hwild => hnot ?_) fun hlabel => hnot ?_
  · exact ⟨.inl hwild, by simp⟩
  · exact ⟨.inr hlabel, by simp⟩

end KeepsBacklog

/-- Rows of one recipient were rewritten, keeping the recipient: nobody else's answer
changes. -/
theorem Journal.labelHasUnreadDelivery_of_recipient (recipient : Recipient)
    {f : DeliveryEvent → DeliveryEvent} (hrows : i.delivery.rows = j.delivery.rows.map f)
    (hstreams : i.streamCursors = j.streamCursors)
    (hf : ∀ r, f r = r ∨ r.recipient = recipient ∧ (f r).recipient = recipient)
    (hwild : recipient ≠ .wildcard) (hlabel : recipient ≠ .label label) :
    i.labelHasUnreadDelivery label = j.labelHasUnreadDelivery label := by
  have hposition : ∀ stream, i.position label stream = j.position label stream := by
    intro stream
    rw [Journal.position, hstreams]
    rfl
  rw [Bool.eq_iff_iff, Journal.labelHasUnreadDelivery_map hrows,
    Journal.labelHasUnreadDelivery_iff]
  refine exists_congr fun r => and_congr_right fun hr => ?_
  rcases hf r with heq | ⟨hr₁, hr₂⟩
  · rw [heq, Journal.Unread, Journal.Unread, hposition]
  · refine iff_of_false ?_ ?_
    · rintro ⟨hto | hto, -⟩
      · exact hlabel (hr₂.symm.trans hto)
      · exact hwild (hr₂.symm.trans hto)
    · rintro ⟨hto | hto, -⟩
      · exact hlabel (hr₁.symm.trans hto)
      · exact hwild (hr₁.symm.trans hto)

theorem Journal.labelHasUnreadDelivery_of_insert {row : DeliveryEvent}
    (hinsert : j.delivery.insert? row = some i.delivery)
    (hstreams : i.streamCursors = j.streamCursors) (hnot : ¬ i.Unread label row) :
    i.labelHasUnreadDelivery label = j.labelHasUnreadDelivery label := by
  have hposition : ∀ stream, i.position label stream = j.position label stream := by
    intro stream
    rw [Journal.position, hstreams]
    rfl
  rw [Bool.eq_iff_iff, Journal.labelHasUnreadDelivery_iff, Journal.labelHasUnreadDelivery_iff]
  constructor
  · rintro ⟨r, hr, hunread⟩
    rcases (Table.mem_of_insert? hinsert).mp hr with hold | rfl
    · rw [Journal.Unread, hposition] at hunread
      exact ⟨r, hold, hunread⟩
    · exact absurd hunread hnot
  · rintro ⟨r, hr, hunread⟩
    rw [Journal.Unread, ← hposition] at hunread
    exact ⟨r, (Table.mem_of_insert? hinsert).mpr (.inl hr), hunread⟩

/-! ### Transactions that refresh enough -/

theorem markDeliveryProjected_keepsBacklog {v : DeliveryProjection}
    (h : j.markDeliveryProjected recipient event now = .ok (v, j')) : KeepsBacklog j j' := by
  unfold Journal.markDeliveryProjected at h
  split at h
  · cases h
  rename_i row htarget
  have hrow : row ∈ j.delivery := by
    unfold Journal.projectionTarget at htarget
    split at htarget
    · cases htarget
      exact (DeliveryTable.get?_eq_some.mp ‹_›).1
    · split at htarget
      · split at htarget
        · cases htarget
          exact (DeliveryTable.get?_eq_some.mp ‹_›).1
        · cases htarget
      · cases htarget
  cases h
  split
  · -- The row was projected before.
    rename_i hprojected
    have hsame : j.delivery.projectWhere
        (fun r => r.recipient = row.recipient ∧ r.event = row.event) now = j.delivery := by
      apply Table.ext
      rw [DeliveryTable.rows_projectWhere]
      refine (List.map_congr_left fun r hr => ?_).trans (List.map_id _)
      split
      · rename_i hkey
        obtain rfl := DeliveryTable.eq_of_key hr hrow hkey.1 hkey.2
        obtain ⟨t, ht⟩ := Option.ne_none_iff_exists'.mp hprojected
        simp only [DeliveryEvent.project, ht, Option.getD_some, id]
        rw [← ht]
      · rfl
    exact .of_frame rfl rfl hsame rfl
  · refine .of_invalidate (i := { j with
      delivery := j.delivery.projectWhere
        (fun r => r.recipient = row.recipient ∧ r.event = row.event) now }) id rfl rfl
      (fun _ => rfl) fun label hwild hlabel => ?_
    refine Journal.labelHasUnreadDelivery_of_recipient row.recipient
      (DeliveryTable.rows_projectWhere _ _ _) rfl (fun r => ?_) hwild hlabel
    split
    · rename_i hkey
      exact .inr ⟨hkey.1, hkey.1⟩
    · exact .inl rfl

theorem Journal.labelHasUnreadDelivery_withdrawKey (j : Journal) (recipient : Recipient)
    (event : EventId) (now : Timestamp) (hwild : recipient ≠ .wildcard)
    (hlabel : recipient ≠ .label label) :
    { j with
      delivery := j.delivery.withdrawWhere
        (fun r => r.recipient = recipient ∧ r.event = event) now }.labelHasUnreadDelivery
          label = j.labelHasUnreadDelivery label := by
  refine Journal.labelHasUnreadDelivery_of_recipient recipient
    (DeliveryTable.rows_withdrawWhere _ _ _) rfl (fun r => ?_) hwild hlabel
  split
  · rename_i hkey
    exact .inr ⟨hkey.1, hkey.1⟩
  · exact .inl rfl

theorem withdrawDeliveryEvent_keepsBacklog {v : Option DeliveryEvent}
    (h : j.withdrawDeliveryEvent recipient event now = .ok (v, j')) : KeepsBacklog j j' := by
  unfold Journal.withdrawDeliveryEvent at h
  split at h
  · cases h
    exact .refl j
  rename_i row hget
  obtain ⟨hrow, hrecipient, hevent⟩ := DeliveryTable.get?_eq_some.mp hget
  cases h
  split
  · refine .of_invalidate (i := { j with
      delivery := j.delivery.withdrawWhere
        (fun r => r.recipient = recipient ∧ r.event = event) now }) id rfl rfl
      (fun _ => rfl) fun label hwild hlabel => ?_
    exact j.labelHasUnreadDelivery_withdrawKey recipient event now hwild hlabel
  · -- The row was withdrawn before.
    rename_i hdead
    have hsame : j.delivery.withdrawWhere
        (fun r => r.recipient = recipient ∧ r.event = event) now = j.delivery := by
      apply Table.ext
      rw [DeliveryTable.rows_withdrawWhere]
      refine (List.map_congr_left fun r hr => ?_).trans (List.map_id _)
      split
      · rename_i hkey
        obtain rfl := DeliveryTable.eq_of_key hr hrow (hkey.1.trans hrecipient.symm)
          (hkey.2.trans hevent.symm)
        obtain ⟨t, ht⟩ := Option.ne_none_iff_exists'.mp hdead
        simp only [DeliveryEvent.withdraw, ht, Option.getD_some, id]
        rw [← ht]
      · rfl
    exact .of_frame rfl rfl hsame rfl

theorem withdrawStale_keepsBacklog (event : EventId) (now : Timestamp) (j : Journal)
    (recipient : Recipient) : KeepsBacklog j (j.withdrawStale event now recipient) := by
  refine .of_invalidate (i := { j with
    delivery := j.delivery.withdrawWhere
      (fun r => r.recipient = recipient ∧ r.event = event) now }) id rfl rfl
    (fun _ => rfl) fun label hwild hlabel => ?_
  exact j.labelHasUnreadDelivery_withdrawKey recipient event now hwild hlabel

theorem reconcileTerminalDeliveryRecipients_keepsBacklog {requested : List Recipient}
    {v : List Recipient}
    (h : j.reconcileTerminalDeliveryRecipients event requested now = .ok (v, j')) :
    KeepsBacklog j j' := by
  unfold Journal.reconcileTerminalDeliveryRecipients at h
  cases h
  generalize List.map DeliveryEvent.recipient _ = stale
  induction stale generalizing j with
  | nil => exact .refl j
  | cons recipient stale ih => exact (withdrawStale_keepsBacklog event now j recipient).trans ih

theorem raiseSystemAttention_keepsBacklog (j : Journal) (item : SystemAttentionItem)
    (carrierPath : String) (now : Timestamp) :
    KeepsBacklog j (j.raiseSystemAttention item carrierPath now) := by
  unfold Journal.raiseSystemAttention
  simp only
  split
  · exact .of_frame rfl rfl rfl rfl
  · rename_i delivery _
    refine .of_invalidate (i := { j with
        systemAttention := (j.systemAttention.insert? item).getD j.systemAttention
        delivery := delivery }) id rfl rfl (fun _ => rfl) fun label hwild _ => ?_
    exact absurd rfl hwild

/-! ### Leases -/

/-- An item is opened only for a label that has none open, and the row of its event is
for that label. -/
theorem materializeAttention_keepsBacklog {generation : ℕ} {triggerSide : TriggerSide}
    {itemId : String} {u : Unit}
    (h : j.materializeAttention label generation triggerSide reason itemId now = .ok (u, j'))
    (hopen : j.OneOpenAttention) : KeepsBacklog j j' := by
  unfold Journal.materializeAttention at h
  split at h
  · cases h
    exact .refl j
  rw [hopen.collapse label now] at h
  simp only at h
  split at h
  · cases h
    exact .refl j
  rename_i hnone
  split at h
  · cases h
  rename_i attention hattention
  split at h
  · cases h
  rename_i delivery hdelivery
  cases h
  have hclosed : ∀ a ∈ j.attention, a.Open → a.sourceLabel ≠ label := by
    intro a ha ha' hlabel
    refine hnone (.inl ?_)
    rw [Option.isSome_iff_ne_none]
    intro hmax
    have hempty := List.max?_eq_none_iff.mp hmax
    have hmem : a ∈ j.attention.rows.filter fun a => a.sourceLabel = label ∧ a.Open :=
      List.mem_filter.mpr ⟨ha, by simpa [hlabel] using ha'⟩
    rw [List.map_eq_nil_iff.mp hempty] at hmem
    exact List.not_mem_nil hmem
  refine .of_invalidate (i := { j with
    attention := attention
    delivery := delivery }) (fun _ a ha b hb haopen hbopen hsame => ?_) rfl rfl (fun _ => rfl)
    fun l _ hlabel => ?_
  · rcases (Table.mem_of_insert? hattention).mp ha with ha | rfl <;>
      rcases (Table.mem_of_insert? hattention).mp hb with hb | rfl
    · exact hopen a ha b hb haopen hbopen hsame
    · exact absurd hsame (hclosed a ha haopen)
    · exact absurd hsame.symm (hclosed b hb hbopen)
    · rfl
  · refine Journal.labelHasUnreadDelivery_of_insert hdelivery rfl ?_
    rintro ⟨hto | hto, -⟩
    · exact hlabel hto
    · cases hto

theorem newGeneration_keepsBacklog {c : LeaseClaim} {replaced : Option String}
    (h : j.newGeneration c replaced = .ok (v, j')) :
    KeepsBacklog j j' := by
  unfold Journal.newGeneration at h
  simp only at h
  split at h
  · cases h
  cases h
  refine ⟨id, fun _ hj d hd => ?_⟩
  -- The label's own row is written, whether it was there or not.
  have hmem : d ∈ KeyedTable.upsert j.cursors (c.newCursor _ _) (c.moveCursor _ _)
      (fun _ => rfl) := hd
  rcases KeyedTable.mem_upsert hmem with ⟨hd, -⟩ | rfl | ⟨r, -, hlabel, rfl⟩
  · exact hj d hd
  · rfl
  · show j.labelHasUnreadDelivery c.label = j.labelHasUnreadDelivery r.label
    rw [show r.label = c.label from hlabel]

theorem leaseRules_keepsBacklog : LeaseRules Journal.OneOpenAttention KeepsBacklog where
  refl := .refl
  trans := .trans
  keeps h := h.oneOpen
  attention hopen h := materializeAttention_keepsBacklog h hopen
  ended _ _ _ _ _ := .of_frame rfl rfl rfl rfl
  collapse j label now hopen := by
    rw [hopen.collapse label now]
    exact .refl j
  renewed _ _ _ _ _ _ _ := .of_frame rfl rfl rfl rfl
  new := newGeneration_keepsBacklog
  exited _ _ _ _ := .of_frame rfl rfl rfl rfl

/-! ### Cursors -/

theorem map_ite_eq_self {α : Type} {rows : List α} {p : α → Prop} [DecidablePred p]
    {f : α → α} (h : rows.countP (fun r => p r) = 0) :
    (rows.map fun r => if p r then f r else r) = rows := by
  refine (List.map_congr_left fun r hr => ?_).trans (List.map_id _)
  have hnot : ¬ p r := by simpa using List.countP_eq_zero.mp h r hr
  rw [if_neg hnot]
  rfl

theorem DeliveryTable.adopt_zero {t t' : DeliveryTable} {stream : String}
    {currentPosition position : ℕ}
    (h : t.adopt label stream currentPosition position now = some (t', 0)) : t' = t := by
  unfold DeliveryTable.adopt at h
  obtain ⟨adopted, hadopted, heq⟩ := Option.map_eq_some_iff.mp h
  obtain ⟨rfl, hzero⟩ := Prod.mk.inj heq
  obtain ⟨hwithdrawn, hrelabelled⟩ := Nat.add_eq_zero_iff.mp hzero
  apply Table.ext
  rw [Table.update?_eq_some hadopted, map_ite_eq_self hrelabelled,
    DeliveryTable.rows_withdrawWhere, map_ite_eq_self hwithdrawn]

theorem DeliveryTable.adoptAll_zero {current : String → ℕ} {advances : List (String × ℕ)} :
    ∀ {t t' : DeliveryTable}, t.adoptAll label current now advances = some (t', 0) →
      t' = t := by
  induction advances with
  | nil =>
    intro t t' h
    cases h
    rfl
  | cons p rest ih =>
    intro t t' h
    unfold DeliveryTable.adoptAll at h
    split at h
    · cases h
    · obtain ⟨⟨u, m⟩, hrest, heq⟩ := Option.map_eq_some_iff.mp h
      obtain ⟨rfl, hzero⟩ := Prod.mk.inj heq
      obtain ⟨rfl, rfl⟩ := Nat.add_eq_zero_iff.mp hzero
      rw [ih hrest]
      exact DeliveryTable.adopt_zero ‹_›

/-- A cursor write refreshes its label at the end, and the other labels as soon as it has
adopted a row: of the label's own row nothing need be known. -/
theorem writeCursorPositions_backlogExact {generation version : ℕ} {advances : Dict ℕ}
    {v : CursorWrite}
    (h : j.writeCursorPositions label generation version advances actor now = .ok (v, j'))
    (hj : ∀ c ∈ j.cursors, c.label ≠ label →
      c.backlogPending = j.labelHasUnreadDelivery c.label) : j'.BacklogExact := by
  unfold Journal.writeCursorPositions at h
  simp only at h
  split at h
  · cases h
  rename_i delivery adopted hadopt
  split at h
  · cases h
  split at h
  · cases h
  cases h
  intro d hd
  obtain ⟨c, hc, rfl⟩ := Table.exists_of_mem hd rfl
  split
  · rename_i hlabel
    show Journal.labelHasUnreadDelivery _ label = Journal.labelHasUnreadDelivery _ c.label
    rw [hlabel]
    rfl
  · rename_i hlabel
    have hsame : Journal.labelHasUnreadDelivery { j with
        delivery := delivery
        streamCursors := writeStreamCursors j.streamCursors label now advances.rows } c.label =
          Journal.labelHasUnreadDelivery { j with delivery := delivery } c.label := by
      refine Journal.labelHasUnreadDelivery_congr rfl fun stream => ?_
      unfold Journal.position
      rw [writeStreamCursors_get?_of_ne fun p _ heq => hlabel (congrArg Prod.fst heq)]
    refine Eq.trans ?_ hsame.symm
    split at hc
    · obtain ⟨b, -, rfl⟩ := Table.exists_of_mem hc rfl
      split
      · rfl
      · rename_i hnot
        refine absurd ⟨.inl rfl, fun heq => hlabel ?_⟩ hnot
        rw [if_neg hnot]
        exact (Option.some.inj heq).symm
    · rename_i hzero
      obtain rfl : adopted = 0 := not_not.mp hzero
      rw [hj c hc hlabel, DeliveryTable.adoptAll_zero hadopt]

theorem ensureCursor_backlog (hj : j.BacklogExact) :
    ∀ c ∈ (j.ensureCursor label now).cursors, c.label ≠ label →
      c.backlogPending = (j.ensureCursor label now).labelHasUnreadDelivery c.label := by
  intro c hc hlabel
  have hmem : c ∈ KeyedTable.upsert j.cursors
      ⟨label, (j.leases.maxGeneration? label).getD 1, 0, false, now, none, none⟩
      id (fun _ => rfl) := hc
  rcases KeyedTable.mem_upsert hmem with ⟨hc, -⟩ | rfl | ⟨r, hr, -, rfl⟩
  · exact hj c hc
  · exact absurd rfl hlabel
  · exact hj r hr

theorem setCursor_keepsBacklog {positions : Option (Dict ℕ)} {v : CursorWrite}
    (h : j.setCursor label positions actor now = .ok (v, j')) : KeepsBacklog j j' := by
  obtain ⟨_, _, _, _, hframe⟩ := (setCursor_write h).rest
  obtain ⟨cursor, i, rfl, hwrite⟩ := setCursor_eq_ok h
  refine ⟨fun hopen => ?_, fun _ hj => ?_⟩
  · rw [hframe]
    exact hopen
  · exact writeCursorPositions_backlogExact hwrite (ensureCursor_backlog hj)

theorem advanceCursor_keepsBacklog {nonce : Option String} {version : ℕ}
    {snapshots : Dict String} {advances : Dict ℕ} {allowNoLease : Bool} {v : CursorWrite}
    (h : j.advanceCursor label nonce version snapshots advances actor allowNoLease now =
      .ok (v, j')) : KeepsBacklog j j' := by
  obtain ⟨_, _, _, _, hframe⟩ := (advanceCursor_write h).rest
  obtain ⟨cursor, i, hgate, -, hwrite⟩ := advanceCursor_eq_ok h
  refine ⟨fun hopen => ?_, fun _ hj => ?_⟩
  · rw [hframe]
    exact hopen
  · refine writeCursorPositions_backlogExact hwrite ?_
    rcases cursorGate_cases hgate with rfl | rfl
    · exact fun c hc _ => hj c hc
    · exact ensureCursor_backlog hj

/-! ### Transactions that may refresh too little -/

/-- The rows a release of the label withdraws. -/
abbrev Journal.ReleaseWithdraws (j : Journal) (label : Label) (r : DeliveryEvent) : Prop :=
  j.RehomeCandidate label r ∧ j.CarriedByWildcard r

/-- The rows a resolution withdraws: the events of the items it resolves. -/
def Journal.ResolutionWithdraws (j : Journal) (itemType dispatchId : String)
    (keepReason : Option String) (r : DeliveryEvent) : Prop :=
  r.Attention ∧ ∃ a ∈ j.systemAttention.rows,
    a.Resolvable itemType dispatchId keepReason ∧ r.event = ⟨"journal", a.itemId⟩

/-- **Refreshes enough.**  Whoever loses the last unread row to the transaction is among
the labels whose cursor it refreshes. -/
def JournalOp.RefreshesEnough (j : Journal) : JournalOp → Prop
  | .recordDeliveryEvent a replaces fallback _ =>
    ∀ c ∈ j.cursors, j.LosesUnread (Replaces replaces) c.label →
      j.delivery.get? (j.effectiveRecipient a.recipient fallback) a.event = none ∧
        (j.effectiveRecipient a.recipient fallback = .wildcard ∨
          j.effectiveRecipient a.recipient fallback = .label c.label)
  | .releaseLease label _ _ _ =>
    ∀ c ∈ j.cursors, c.label = label → ¬ j.LosesUnread (j.ReleaseWithdraws label) label
  | .resolveSystemAttention itemType dispatchId keepReason _ =>
    ∀ c ∈ j.cursors,
      ¬ j.LosesUnread (j.ResolutionWithdraws itemType dispatchId keepReason) c.label
  | _ => True

theorem recordDeliveryEvent_backlogExact_iff {a : Assignment}
    {replaces : List (Recipient × EventId)} {fallback : Bool} {v : DeliveryEvent}
    (h : j.recordDeliveryEvent a replaces fallback now = .ok (v, j')) (hj : j.BacklogExact) :
    j'.BacklogExact ↔ (JournalOp.recordDeliveryEvent a replaces fallback now).RefreshesEnough
      j := by
  have hreplaced : ∀ label, { j with
      delivery := j.delivery.withdrawWhere (Replaces replaces) now }.labelHasUnreadDelivery
        label = j.labelHasUnreadDelivery label ↔ ¬ j.LosesUnread (Replaces replaces) label :=
    fun label => Journal.labelHasUnreadDelivery_eq_iff
      (Journal.labelHasUnreadDelivery_withdraw rfl fun _ => rfl)
  unfold Journal.recordDeliveryEvent at h
  split at h
  · cases h
  split at h
  · cases h
  simp only at h
  split at h
  · -- The event is assigned already, and nobody is refreshed.
    rename_i existing hget
    split at h
    · cases h
      refine Iff.trans (Journal.backlogExact_iff hj rfl) ?_
      rw [JournalOp.RefreshesEnough, hget]
      refine forall₂_congr fun c _ => ?_
      rw [hreplaced]
      simp
    · cases h
  · rename_i hget
    split at h
    · cases h
    rename_i inserted hinsert
    cases h
    -- The new row is not projected yet.
    have hnew : ∀ label, { j with delivery := inserted }.labelHasUnreadDelivery label =
        { j with
          delivery := j.delivery.withdrawWhere (Replaces replaces) now
          }.labelHasUnreadDelivery label := fun label =>
      Journal.labelHasUnreadDelivery_of_insert (j := { j with
        delivery := j.delivery.withdrawWhere (Replaces replaces) now }) hinsert rfl
        fun hunread => hunread.2.1 rfl
    refine Iff.trans (Journal.backlogExact_invalidate_iff (i := { j with
      delivery := inserted }) hj rfl rfl fun _ => rfl) ?_
    rw [JournalOp.RefreshesEnough, hget]
    refine forall₂_congr fun c _ => ?_
    rw [hnew, hreplaced, invalidates]
    simp only [ne_eq, reduceCtorEq, not_false_eq_true, and_true, true_and]
    exact not_imp_not

theorem resolveSystemAttention_backlogExact_iff {itemType dispatchId : String}
    {keepReason : Option String} {v : List String}
    (h : j.resolveSystemAttention itemType dispatchId keepReason now = .ok (v, j'))
    (hj : j.BacklogExact) :
    j'.BacklogExact ↔ (JournalOp.resolveSystemAttention itemType dispatchId keepReason
      now).RefreshesEnough j := by
  unfold Journal.resolveSystemAttention at h
  split at h
  · cases h
  cases h
  refine Iff.trans (Journal.backlogExact_iff hj rfl) ?_
  rw [JournalOp.RefreshesEnough]
  refine forall₂_congr fun c _ => ?_
  refine Journal.labelHasUnreadDelivery_eq_iff ?_
  refine Iff.trans (Journal.labelHasUnreadDelivery_withdraw rfl fun _ => rfl) ?_
  refine exists_congr fun r => and_congr_right fun _ => and_congr_right fun _ => ?_
  refine not_congr (and_congr_right fun _ => ?_)
  simp [and_assoc]

theorem rehomeRetiredDeliveryEvents_zero {retired : Label}
    (h : j.rehomeRetiredDeliveryEvents retired now = .ok (0, j')) :
    j'.delivery = j.delivery := by
  unfold Journal.rehomeRetiredDeliveryEvents at h
  simp only at h
  split at h
  · cases h
  · rename_i moved hmoved
    obtain ⟨hzero, rfl⟩ := Prod.mk.inj (Except.ok.inj h)
    obtain ⟨hwithdrawn, hrelabelled⟩ := Nat.add_eq_zero_iff.mp hzero
    apply Table.ext
    rw [Table.update?_eq_some hmoved, map_ite_eq_self hrelabelled,
      DeliveryTable.rows_withdrawWhere, map_ite_eq_self hwithdrawn]

/-- What the retired label has unread after its rows went to the wildcard: what was not
withdrawn, since it reads the wildcard's rows as well. -/
theorem rehomeRetiredDeliveryEvents_unread {retired : Label} {n : ℕ}
    (h : j.rehomeRetiredDeliveryEvents retired now = .ok (n, j')) :
    j'.labelHasUnreadDelivery retired = true ↔
      ∃ r ∈ j.delivery, j.Unread retired r ∧ ¬ j.ReleaseWithdraws retired r := by
  obtain ⟨i, hi, moved, hmoved, rfl⟩ := Journal.rehomeRetiredDeliveryEvents_eq_ok h
  have hwithdrawn : i.delivery = j.delivery.withdrawWhere
      (fun r => j.RehomeCandidate retired r ∧ j.CarriedByWildcard r) now := by rw [hi]
  have hposition : ∀ stream, i.position retired stream = j.position retired stream := by
    rw [hi]
    exact fun _ => rfl
  have hmap := @Journal.labelHasUnreadDelivery_map retired { j with delivery := moved } i _
    (Table.update?_eq_some hmoved)
  rw [hmap, ← Journal.labelHasUnreadDelivery_withdraw hwithdrawn hposition,
    Journal.labelHasUnreadDelivery_iff]
  refine exists_congr fun r => and_congr_right fun _ => ?_
  split
  · rename_i hcandidate
    have hto : r.AddressedTo retired := .inl hcandidate.1
    have hto' : (r.relabel .wildcard).AddressedTo retired := .inr rfl
    unfold Journal.Unread
    rw [iff_true_intro hto, iff_true_intro hto', hposition]
    rfl
  · unfold Journal.Unread
    rw [hposition]
    rfl

theorem releaseLease_backlogExact_iff {nonce : String}
    (h : j.releaseLease label nonce reason now = .ok (v, j')) (hj : j.BacklogExact) :
    j'.BacklogExact ↔ (JournalOp.releaseLease label nonce reason now).RefreshesEnough j := by
  unfold Journal.releaseLease at h
  split at h
  · cases h
  rename_i l _
  obtain ⟨n, i, hrehome, h⟩ := Tx.andThen_eq_ok.mp h
  cases h
  have hleft := rehomeRetiredDeliveryEvents_unread hrehome
  have hunread : i.labelHasUnreadDelivery label = j.labelHasUnreadDelivery label ↔
      ¬ j.LosesUnread (j.ReleaseWithdraws label) label :=
    Journal.labelHasUnreadDelivery_eq_iff hleft
  have hcursors : i.cursors = j.cursors := by
    obtain ⟨_, -, moved, -, rfl⟩ := Journal.rehomeRetiredDeliveryEvents_eq_ok hrehome
    rfl
  have hposition : ∀ label stream, i.position label stream = j.position label stream := by
    obtain ⟨_, -, moved, -, rfl⟩ := Journal.rehomeRetiredDeliveryEvents_eq_ok hrehome
    exact fun _ _ => rfl
  rw [JournalOp.RefreshesEnough]
  by_cases hn : n = 0
  · subst hn
    have hdelivery := rehomeRetiredDeliveryEvents_zero hrehome
    have hsame : ∀ l, i.labelHasUnreadDelivery l = j.labelHasUnreadDelivery l := fun l =>
      Journal.labelHasUnreadDelivery_congr hdelivery (hposition l)
    refine iff_of_true ?_ fun c _ _ => hunread.mp (hsame label)
    exact Iff.mpr (Journal.backlogExact_iff hj hcursors) fun c _ => hsame c.label
  · refine Iff.trans (Journal.backlogExact_invalidate_iff (i := i) hj hcursors (if_pos hn)
      fun _ => rfl) ?_
    refine forall₂_congr fun c _ => ?_
    rw [invalidates, ← hunread]
    simp only [true_or, true_and, not_not, ne_eq, Option.some.injEq]
    constructor
    · rintro h rfl
      exact h rfl
    · rintro h rfl
      exact h rfl

/-! ### Every transaction -/

theorem KeepsBacklog.of_attemptWrite (h : AttemptWrite j j') :
    KeepsBacklog j j' := by
  obtain ⟨_, _, _, rfl⟩ := h
  exact .of_frame rfl rfl rfl rfl

theorem recordDeliveryEvent_attention {a : Assignment} {replaces : List (Recipient × EventId)}
    {fallback : Bool} {v : DeliveryEvent}
    (h : j.recordDeliveryEvent a replaces fallback now = .ok (v, j')) :
    j'.attention = j.attention := by
  unfold Journal.recordDeliveryEvent at h
  split at h
  · cases h
  split at h
  · cases h
  simp only at h
  split at h
  · split at h
    · cases h
      rfl
    · cases h
  · split at h
    · cases h
    · cases h
      rfl

/-- What a step does to the two facts: no label gets a second open item, and the column
stays exact just in case the transaction refreshes enough. -/
def JournalOp.Counts (op : JournalOp) (j j' : Journal) : Prop :=
  j'.OneOpenAttention ∧ (j.BacklogExact → (j'.BacklogExact ↔ op.RefreshesEnough j))

theorem KeepsBacklog.counts {op : JournalOp} (h : KeepsBacklog j j')
    (hopen : j.OneOpenAttention) (hop : op.RefreshesEnough j) : op.Counts j j' :=
  ⟨h.oneOpen hopen, fun hj => iff_of_true (h.exact hopen hj) hop⟩

/-- **Step.** -/
theorem JournalOp.run_counts {op : JournalOp} (h : op.run j = .ok j')
    (hopen : j.OneOpenAttention) : op.Counts j j' := by
  cases op with
  | recordDeliveryEvent a replaces fallback now =>
    obtain ⟨v, hv⟩ := Tx.committed_eq_ok.mp h
    refine ⟨?_, recordDeliveryEvent_backlogExact_iff hv⟩
    rwa [Journal.OneOpenAttention, recordDeliveryEvent_attention hv]
  | markDeliveryProjected recipient event now =>
    obtain ⟨v, hv⟩ := Tx.committed_eq_ok.mp h
    exact (markDeliveryProjected_keepsBacklog hv).counts hopen trivial
  | withdrawDeliveryEvent recipient event now =>
    obtain ⟨v, hv⟩ := Tx.committed_eq_ok.mp h
    exact (withdrawDeliveryEvent_keepsBacklog hv).counts hopen trivial
  | reconcileTerminalDeliveryRecipients event requested now =>
    obtain ⟨v, hv⟩ := Tx.committed_eq_ok.mp h
    exact (reconcileTerminalDeliveryRecipients_keepsBacklog hv).counts hopen trivial
  | expireStaleLeases provenDead endedAt =>
    obtain ⟨v, hv⟩ := Tx.committed_eq_ok.mp h
    exact (leaseRules_keepsBacklog.expireStaleLeases hopen hv).counts hopen trivial
  | renewActiveLease label nonce generation deadline =>
    obtain ⟨v, hv⟩ := Tx.committed_eq_ok.mp h
    unfold Journal.renewActiveLease at hv
    split at hv
    · cases hv
    · cases hv
      exact (KeepsBacklog.of_frame rfl rfl rfl rfl).counts hopen trivial
  | claimOrRenewLease claim =>
    obtain ⟨v, hv⟩ := Tx.committed_eq_ok.mp h
    exact (leaseRules_keepsBacklog.claimOrRenewLease hopen hv).counts hopen trivial
  | releaseLease label nonce reason now =>
    obtain ⟨v, hv⟩ := Tx.committed_eq_ok.mp h
    refine ⟨?_, releaseLease_backlogExact_iff hv⟩
    obtain ⟨l, n, i, cursors, -, hrehome, -, rfl⟩ := releaseLease_eq_ok hv
    obtain ⟨_, -, moved, -, rfl⟩ := Journal.rehomeRetiredDeliveryEvents_eq_ok hrehome
    exact hopen
  | armListener label nonce pid startToken parentPid coverageId now =>
    obtain ⟨v, hv⟩ := Tx.committed_eq_ok.mp h
    unfold Journal.armListener at hv
    split at hv
    · cases hv
    split at hv
    · cases hv
    split at hv
    · cases hv
    simp only at hv
    split at hv
    · cases hv
    · cases hv
      exact (KeepsBacklog.of_frame rfl rfl rfl rfl).counts hopen trivial
  | exitListener coverageId reason itemId now =>
    obtain ⟨v, hv⟩ := Tx.committed_eq_ok.mp h
    exact (leaseRules_keepsBacklog.exitListener hopen hv).counts hopen trivial
  | setCursor label positions actor now =>
    obtain ⟨v, hv⟩ := Tx.committed_eq_ok.mp h
    exact (setCursor_keepsBacklog hv).counts hopen trivial
  | advanceCursor label nonce version snapshots advances actor allowNoLease now =>
    obtain ⟨v, hv⟩ := Tx.committed_eq_ok.mp h
    exact (advanceCursor_keepsBacklog hv).counts hopen trivial
  | prepareAttempt request =>
    obtain ⟨v, hv⟩ := Tx.committed_eq_ok.mp h
    exact (KeepsBacklog.of_attemptWrite (prepareAttempt_write hv).attemptWrite).counts hopen
      trivial
  | rebindPreparedAttemptAccount dispatchId expected account engine =>
    obtain ⟨v, hv⟩ := Tx.committed_eq_ok.mp h
    exact (KeepsBacklog.of_attemptWrite
      (rebindPreparedAttemptAccount_write hv).attemptWrite).counts hopen trivial
  | startAttempt attemptId launchToken epoch now startDeadline =>
    obtain ⟨v, hv⟩ := Tx.committed_eq_ok.mp h
    exact (KeepsBacklog.of_attemptWrite (startAttempt_write hv).attemptWrite).counts hopen
      trivial
  | markAttemptRunning attemptId launchToken launchEpoch workerInstance now =>
    obtain ⟨v, hv⟩ := Tx.committed_eq_ok.mp h
    exact (KeepsBacklog.of_attemptWrite (markAttemptRunning_write hv).attemptWrite).counts
      hopen trivial
  | commitTerminal request =>
    obtain ⟨v, hv⟩ := Tx.committed_eq_ok.mp h
    exact (KeepsBacklog.of_attemptWrite (commitTerminal_write hv)).counts hopen trivial
  | markOutboxProjected row now =>
    obtain ⟨v, hv⟩ := Tx.committed_eq_ok.mp h
    exact (KeepsBacklog.of_attemptWrite (markOutboxProjected_write hv)).counts hopen trivial
  | recordOutboxProjectionFailure row error now retryAt =>
    obtain ⟨v, hv⟩ := Tx.committed_eq_ok.mp h
    obtain ⟨retry, quarantine, i, hi, hj'⟩ := recordOutboxProjectionFailure_eq_ok hv
    have hfirst : KeepsBacklog j i := .of_attemptWrite ⟨_, _, _, hi⟩
    rcases hj' with rfl | ⟨item, carrierPath, rfl⟩
    · exact hfirst.counts hopen trivial
    · exact (hfirst.trans (raiseSystemAttention_keepsBacklog i item carrierPath now)).counts
        hopen trivial
  | recordSystemAttention itemType reason dedupeNamespace dedupeKey dispatchId now =>
    obtain ⟨v, hv⟩ := Tx.committed_eq_ok.mp h
    obtain ⟨item, carrierPath, rfl⟩ := recordSystemAttention_eq_ok hv
    exact (raiseSystemAttention_keepsBacklog j item carrierPath now).counts hopen trivial
  | resolveSystemAttention itemType dispatchId keepReason now =>
    obtain ⟨v, hv⟩ := Tx.committed_eq_ok.mp h
    refine ⟨?_, resolveSystemAttention_backlogExact_iff hv⟩
    obtain ⟨items, rfl⟩ := resolveSystemAttention_eq_ok hv
    exact hopen

theorem Journal.OneOpenAttention.fresh : Journal.fresh.OneOpenAttention :=
  fun _ ha => absurd ha (Table.notMem_empty _)

theorem Journal.BacklogExact.fresh : Journal.fresh.BacklogExact :=
  fun _ hc => absurd hc (Table.notMem_empty _)

/-- **Run.**  `backlog_pending` is exact in every state of a run exactly when every
committed transaction of the run refreshes enough. -/
theorem backlogPending_exact_iff (ops : List JournalOp) :
    (∀ before after, ops = before ++ after →
        (Machine.run Journal.step Journal.fresh before).BacklogExact) ↔
      Machine.Meets Journal.step (fun j op => (op.run j).isOk → op.RefreshesEnough j)
        Journal.fresh ops := by
  refine Machine.forall_states_iff_meets (fun j op hopen hj => ?_)
    Journal.OneOpenAttention.fresh Journal.BacklogExact.fresh
  unfold Journal.step
  cases hrun : op.run j with
  | error e => exact ⟨hopen, iff_of_true hj fun h => nomatch h⟩
  | ok j' =>
    obtain ⟨hopen', hiff⟩ := JournalOp.run_counts hrun hopen
    exact ⟨hopen', (hiff hj).trans ⟨fun henough _ => henough, fun henough => henough rfl⟩⟩

/-- A controller reads nothing, an operator's attention item is raised and resolved, and
the controller's column still says that mail is waiting. -/
theorem backlogPending_stale_after_resolution :
    let j := Machine.run Journal.step Journal.fresh
      [.claimOrRenewLease ⟨"ctl", ⟨some 7, some "s7", none⟩, none, false, none, "u1", "i1",
          "t0", "t0", "t9"⟩,
        .recordSystemAttention "hold" "unknown" "hold" "d1" "d1" "t1",
        .resolveSystemAttention "hold" "d1" none "t2"]
    ¬ j.BacklogExact := by
  decide +kernel

end GoalFlight
