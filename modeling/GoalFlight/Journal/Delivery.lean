import GoalFlight.Journal.Schema
import Mathlib.Data.List.Sort

/-!
# Delivery rows

The transactions of `scripts/goalflight_journal.py` that assign an event to a recipient, make the
assignment visible, withdraw it, or move it to the durable wildcard `*`.

A transaction is a function of the journal and its arguments; `utc_now()` and a fresh UUID are
arguments, and those that the source first passes through `_identity_token` or `_canonical_uuid` are
taken as already accepted.

Each transaction's effect on `delivery_events` is a new row, or one of `withdrawWhere`,
`projectWhere` and `relabelWhere?`, which change one column of some rows.
-/

namespace GoalFlight

open Relational

variable {event : EventId} {j j' : Journal} {recipient : Recipient} {now : Timestamp}
  {a b r : DeliveryEvent} {t t' t₁ t₂ t₃ : DeliveryTable} {p : DeliveryEvent → Prop}

variable {retired : Label} {f : DeliveryEvent → DeliveryEvent}

/-! ### Row updates -/

namespace DeliveryEvent

/-- `SET withdrawn_at = COALESCE(withdrawn_at, ?)`. -/
def withdraw (now : Timestamp) (r : DeliveryEvent) : DeliveryEvent :=
  { r with withdrawnAt := some (r.withdrawnAt.getD now) }

/-- `SET projected_at = COALESCE(projected_at, ?)`. -/
def project (now : Timestamp) (r : DeliveryEvent) : DeliveryEvent :=
  { r with projectedAt := some (r.projectedAt.getD now) }

/-- `SET recipient_label = ?`. -/
def relabel (recipient : Recipient) (r : DeliveryEvent) : DeliveryEvent :=
  { r with recipient := recipient }

@[simp] theorem not_live_withdraw (now : Timestamp) (r : DeliveryEvent) :
    ¬ (r.withdraw now).Live := by
  simp [withdraw]

@[simp] theorem projected_project (now : Timestamp) (r : DeliveryEvent) :
    (r.project now).Projected := by
  simp [project]

end DeliveryEvent

/-! ### Table operations -/

namespace DeliveryTable

/-- The row id SQLite gives the next row: one more than the largest in use. -/
def nextRowid (t : DeliveryTable) : ℕ := (t.rows.map DeliveryEvent.rowid).max?.getD 0 + 1

theorem rowid_lt_nextRowid (hr : r ∈ t) :
    r.rowid < t.nextRowid :=
  Nat.lt_succ_of_le (List.le_max?_getD_of_mem (List.mem_map_of_mem hr))

theorem eq_of_rowid (ha : a ∈ t) (hb : b ∈ t) (h : a.rowid = b.rowid) : a = b :=
  Table.eq_of_not_compat ha hb (fun hc => (Nat.ne_of_lt hc.rowid) h)
    (fun hc => (Nat.ne_of_lt hc.rowid) h.symm)

theorem eq_of_key (ha : a ∈ t) (hb : b ∈ t) (hrec : a.recipient = b.recipient)
    (hev : a.event = b.event) : a = b :=
  Table.eq_of_not_compat ha hb (fun hc => hc.key (by rw [hrec, hev]))
    (fun hc => hc.key (by rw [hrec, hev]))

/-- The assignment of an event to a recipient. -/
def get? (t : DeliveryTable) (recipient : Recipient) (event : EventId) :
    Option DeliveryEvent :=
  t.find? fun r => r.recipient = recipient ∧ r.event = event

theorem get?_eq_some :
    get? t recipient event = some r ↔ r ∈ t ∧ r.recipient = recipient ∧ r.event = event := by
  constructor
  · intro h
    simpa using Table.find?_eq_some h
  · rintro ⟨hr, rfl, rfl⟩
    refine Table.find?_eq_of_unique hr (by simp) fun b hb hp => ?_
    have hkey : b.recipient = r.recipient ∧ b.event = r.event := by simpa using hp
    exact eq_of_key hb hr hkey.1 hkey.2

theorem get?_eq_none :
    get? t recipient event = none ↔
      ∀ r ∈ t, ¬ (r.recipient = recipient ∧ r.event = event) := by
  simp [get?, Table.find?_eq_none]

/-- `UPDATE … SET withdrawn_at = ? WHERE p AND withdrawn_at IS NULL`. -/
def withdrawWhere (t : DeliveryTable) (p : DeliveryEvent → Prop) [DecidablePred p]
    (now : Timestamp) : DeliveryTable :=
  t.update (fun r => if p r then r.withdraw now else r) (by
    rintro a b ⟨hid, hkey, hpos⟩
    refine ⟨?_, ?_, ?_⟩
    · split <;> split <;> exact hid
    · split <;> split <;> exact hkey
    · rintro ⟨ha, hb, heq⟩
      split at ha
      · exact absurd ha (DeliveryEvent.not_live_withdraw _ _)
      · split at hb
        · exact absurd hb (DeliveryEvent.not_live_withdraw _ _)
        · rw [if_neg ‹_›, if_neg ‹_›] at heq
          exact hpos ⟨ha, hb, heq⟩)

@[simp] theorem rows_withdrawWhere (t : DeliveryTable) (p : DeliveryEvent → Prop)
    [DecidablePred p] (now : Timestamp) :
    (t.withdrawWhere p now).rows = t.rows.map fun r => if p r then r.withdraw now else r :=
  rfl

/-- `UPDATE … SET projected_at = ? WHERE p AND projected_at IS NULL`. -/
def projectWhere (t : DeliveryTable) (p : DeliveryEvent → Prop) [DecidablePred p]
    (now : Timestamp) : DeliveryTable :=
  t.update (fun r => if p r then r.project now else r) (by
    rintro a b ⟨hid, hkey, hpos⟩
    refine ⟨?_, ?_, ?_⟩
    · split <;> split <;> exact hid
    · split <;> split <;> exact hkey
    · split <;> split <;> exact hpos)

@[simp] theorem rows_projectWhere (t : DeliveryTable) (p : DeliveryEvent → Prop)
    [DecidablePred p] (now : Timestamp) :
    (t.projectWhere p now).rows = t.rows.map fun r => if p r then r.project now else r :=
  rfl

/-- `UPDATE … SET recipient_label = ? WHERE p`, refused when the primary key or the
live index would be broken. -/
def relabelWhere? (t : DeliveryTable) (p : DeliveryEvent → Prop) [DecidablePred p]
    (recipient : Recipient) : Option DeliveryTable :=
  t.update? fun r => if p r then r.relabel recipient else r

/-- Renaming rows of one recipient is accepted when no other row of the new recipient
has the event, or live the position, of a renamed one. -/
theorem exists_relabelWhere? [DecidablePred p]
    (hone : ∀ a ∈ t, ∀ b ∈ t, p a → p b → a.recipient = b.recipient)
    (hclear : ∀ a ∈ t, ∀ b ∈ t, p a → ¬ p b → b.recipient = recipient →
      b.event ≠ a.event ∧ ¬ (b.Live ∧ a.Live ∧ b.position = a.position)) :
    ∃ t', t.relabelWhere? p recipient = some t' := by
  refine Table.update?_isSome_iff.mpr (Table.pairwise_map_of fun a ha b hb hab => ?_)
  by_cases hpa : p a <;> by_cases hpb : p b
  · have hrec := hone a ha b hb hpa hpb
    rw [if_pos hpa, if_pos hpb]
    refine ⟨hab.rowid, fun h => ?_, fun ⟨hla, hlb, h⟩ => ?_⟩
    · have hev : a.event = b.event := congrArg Prod.snd h
      exact hab.key (Prod.ext hrec hev)
    · have hpos : a.position = b.position := congrArg Prod.snd h
      exact hab.livePosition ⟨hla, hlb, Prod.ext hrec hpos⟩
  · rw [if_pos hpa, if_neg hpb]
    refine ⟨hab.rowid, fun h => ?_, fun ⟨hla, hlb, h⟩ => ?_⟩
    · exact (hclear a ha b hb hpa hpb (congrArg Prod.fst h).symm).1 (congrArg Prod.snd h).symm
    · exact (hclear a ha b hb hpa hpb (congrArg Prod.fst h).symm).2
        ⟨hlb, hla, (congrArg Prod.snd h).symm⟩
  · rw [if_neg hpa, if_pos hpb]
    refine ⟨hab.rowid, fun h => ?_, fun ⟨hla, hlb, h⟩ => ?_⟩
    · exact (hclear b hb a ha hpb hpa (congrArg Prod.fst h)).1 (congrArg Prod.snd h)
    · exact (hclear b hb a ha hpb hpa (congrArg Prod.fst h)).2
        ⟨hla, hlb, congrArg Prod.snd h⟩
  · rwa [if_neg hpa, if_neg hpb]

theorem event_ne_of_relabelWhere? [DecidablePred p] (h : t.relabelWhere? p recipient = some t')
    (ha : a ∈ t) (hb : b ∈ t) (hpa : p a) (hpb : ¬ p b) (hrec : b.recipient = recipient) :
    b.event ≠ a.event := by
  intro hev
  have ha' := Table.apply_mem (Table.update?_eq_some h) ha
  have hb' := Table.apply_mem (Table.update?_eq_some h) hb
  rw [if_pos hpa] at ha'
  rw [if_neg hpb] at hb'
  have hsame := eq_of_key hb' ha' hrec hev
  obtain rfl : b = a := eq_of_rowid hb ha (by rw [hsame]; rfl)
  exact hpb hpa

/-- A live row of a table after `withdrawWhere` is a live row that was not selected. -/
theorem mem_withdrawWhere_live [DecidablePred p] :
    (r ∈ t.withdrawWhere p now ∧ r.Live) ↔ (r ∈ t ∧ r.Live ∧ ¬ p r) := by
  constructor
  · rintro ⟨hr, hlive⟩
    obtain ⟨a, ha, rfl⟩ := Table.exists_of_mem hr rfl
    by_cases hp : p a
    · rw [if_pos hp] at hlive
      exact absurd hlive (DeliveryEvent.not_live_withdraw _ _)
    · rw [if_neg hp] at hlive ⊢
      exact ⟨ha, hlive, hp⟩
  · rintro ⟨hr, hlive, hp⟩
    exact ⟨Table.mem_update.mpr ⟨r, hr, if_neg hp⟩, hlive⟩

end DeliveryTable

/-! ### How the table evolves -/

/-- What any number of transactions can do to a row: give it another recipient, make it
visible, withdraw it.  A row that is not visible yet can only have become the wildcard's. -/
structure DeliveryEvent.Becomes (r r' : DeliveryEvent) : Prop where
  rowid : r'.rowid = r.rowid
  event : r'.event = r.event
  position : r'.position = r.position
  eventType : r'.eventType = r.eventType
  wakeClass : r'.wakeClass = r.wakeClass
  projected : r.Projected → r'.Projected
  withdrawn : ¬ r.Live → ¬ r'.Live
  recipient : ¬ r'.Projected → r'.recipient = r.recipient ∨ r'.recipient = .wildcard

namespace DeliveryEvent.Becomes

theorem refl (r : DeliveryEvent) : r.Becomes r :=
  ⟨rfl, rfl, rfl, rfl, rfl, id, id, fun _ => .inl rfl⟩

theorem trans {c : DeliveryEvent} (h₁ : a.Becomes b) (h₂ : b.Becomes c) : a.Becomes c where
  rowid := h₂.rowid.trans h₁.rowid
  event := h₂.event.trans h₁.event
  position := h₂.position.trans h₁.position
  eventType := h₂.eventType.trans h₁.eventType
  wakeClass := h₂.wakeClass.trans h₁.wakeClass
  projected := h₂.projected ∘ h₁.projected
  withdrawn := h₂.withdrawn ∘ h₁.withdrawn
  recipient hc := by
    have hb : ¬ b.Projected := fun hb => hc (h₂.projected hb)
    rcases h₂.recipient hc with heq | hwild
    · rw [heq]
      exact h₁.recipient hb
    · exact .inr hwild

theorem withdraw (now : Timestamp) (r : DeliveryEvent) : r.Becomes (r.withdraw now) :=
  ⟨rfl, rfl, rfl, rfl, rfl, id, fun _ => DeliveryEvent.not_live_withdraw now r,
    fun _ => .inl rfl⟩

theorem project (now : Timestamp) (r : DeliveryEvent) : r.Becomes (r.project now) :=
  ⟨rfl, rfl, rfl, rfl, rfl, fun _ => DeliveryEvent.projected_project now r, id,
    fun _ => .inl rfl⟩

theorem relabel (h : recipient = .wildcard ∨ r.Projected) :
    r.Becomes (r.relabel recipient) := by
  refine ⟨rfl, rfl, rfl, rfl, rfl, id, id, fun hnot => ?_⟩
  rcases h with hwild | hprojected
  · exact .inr hwild
  · exact absurd hprojected hnot

theorem ite {p : Prop} [Decidable p] {r' : DeliveryEvent} (h : p → r.Becomes r') :
    r.Becomes (if p then r' else r) := by
  split
  · exact h ‹_›
  · exact refl r

end DeliveryEvent.Becomes

/-- No row is lost, and new rows come after the old ones. -/
structure DeliveryTable.Evolves (t t' : DeliveryTable) : Prop where
  kept : ∀ r ∈ t, ∃ r' ∈ t', r.Becomes r'
  grown : ∀ r' ∈ t', (∃ r ∈ t, r.Becomes r') ∨ ∀ r ∈ t, r.rowid < r'.rowid

/-- And new rows are born visible: no assignment is waiting for its carrier record. -/
structure DeliveryTable.Matures (t t' : DeliveryTable) : Prop extends t.Evolves t' where
  born : ∀ r' ∈ t', (∃ r ∈ t, r.Becomes r') ∨ r'.Projected

/-- And no row is new and none becomes visible. -/
structure DeliveryTable.Dims (t t' : DeliveryTable) : Prop extends t.Matures t' where
  unmarked : ∀ r' ∈ t', ∃ r ∈ t, r.Becomes r' ∧ (r'.Projected → r.Projected)

/-- No live row is withdrawn, those of attention events apart, and none changes its
recipient. -/
structure DeliveryTable.Spares (t t' : DeliveryTable) : Prop extends t.Matures t' where
  spared : ∀ r ∈ t, r.Live → ¬ r.Attention → ∃ r' ∈ t', r.Becomes r' ∧ r'.Live
  addressed : ∀ r ∈ t, ∀ r' ∈ t', r'.rowid = r.rowid → r'.recipient = r.recipient

namespace DeliveryTable.Evolves

theorem refl (t : DeliveryTable) : t.Evolves t :=
  ⟨fun r hr => ⟨r, hr, .refl r⟩, fun r hr => .inl ⟨r, hr, .refl r⟩⟩

theorem trans (h₁ : t₁.Evolves t₂) (h₂ : t₂.Evolves t₃) :
    t₁.Evolves t₃ where
  kept r hr := by
    obtain ⟨s, hs, hrs⟩ := h₁.kept r hr
    obtain ⟨u, hu, hsu⟩ := h₂.kept s hs
    exact ⟨u, hu, hrs.trans hsu⟩
  grown u hu := by
    rcases h₂.grown u hu with ⟨s, hs, hsu⟩ | hnew
    · rcases h₁.grown s hs with ⟨r, hr, hrs⟩ | hnew
      · exact .inl ⟨r, hr, hrs.trans hsu⟩
      · exact .inr fun r hr => hsu.rowid ▸ hnew r hr
    · refine .inr fun r hr => ?_
      obtain ⟨s, hs, hrs⟩ := h₁.kept r hr
      exact hrs.rowid ▸ hnew s hs

theorem of_insert (h : t.insert? a = some t') :
    t.Evolves t' where
  kept r hr := ⟨r, (Table.mem_of_insert? h).mpr (.inl hr), .refl r⟩
  grown r' hr' := by
    rcases (Table.mem_of_insert? h).mp hr' with hr | rfl
    · exact .inl ⟨r', hr, .refl r'⟩
    · exact .inr fun r hr => ((Table.insert?_eq_some h).1 r hr).rowid

end DeliveryTable.Evolves

namespace DeliveryTable.Matures

theorem refl (t : DeliveryTable) : t.Matures t :=
  ⟨.refl t, fun r hr => .inl ⟨r, hr, .refl r⟩⟩

theorem trans (h₁ : t₁.Matures t₂) (h₂ : t₂.Matures t₃) :
    t₁.Matures t₃ where
  toEvolves := h₁.toEvolves.trans h₂.toEvolves
  born u hu := by
    rcases h₂.born u hu with ⟨s, hs, hsu⟩ | hprojected
    · rcases h₁.born s hs with ⟨r, hr, hrs⟩ | hprojected
      · exact .inl ⟨r, hr, hrs.trans hsu⟩
      · exact .inr (hsu.projected hprojected)
    · exact .inr hprojected

theorem of_map (h : t'.rows = t.rows.map f) (hf : ∀ r : DeliveryEvent, r.Becomes (f r)) :
    t.Matures t' where
  kept r hr := ⟨f r, Table.apply_mem h hr, hf r⟩
  grown r' hr' := by
    obtain ⟨r, hr, rfl⟩ := Table.exists_of_mem hr' h
    exact .inl ⟨r, hr, hf r⟩
  born r' hr' := by
    obtain ⟨r, hr, rfl⟩ := Table.exists_of_mem hr' h
    exact .inl ⟨r, hr, hf r⟩

theorem of_insert (h : t.insert? a = some t') (ha : a.Projected) : t.Matures t' where
  toEvolves := .of_insert h
  born r' hr' := by
    rcases (Table.mem_of_insert? h).mp hr' with hr | rfl
    · exact .inl ⟨r', hr, .refl r'⟩
    · exact .inr ha

end DeliveryTable.Matures

namespace DeliveryTable.Dims

theorem refl (t : DeliveryTable) : t.Dims t :=
  ⟨.refl t, fun r hr => ⟨r, hr, .refl r, id⟩⟩

theorem trans (h₁ : t₁.Dims t₂) (h₂ : t₂.Dims t₃) :
    t₁.Dims t₃ where
  toMatures := h₁.toMatures.trans h₂.toMatures
  unmarked u hu := by
    obtain ⟨s, hs, hsu, hprojected⟩ := h₂.unmarked u hu
    obtain ⟨r, hr, hrs, hprojected'⟩ := h₁.unmarked s hs
    exact ⟨r, hr, hrs.trans hsu, hprojected' ∘ hprojected⟩

instance : IsPreorder DeliveryTable DeliveryTable.Dims where
  refl := refl
  trans _ _ _ := trans

theorem of_map (h : t'.rows = t.rows.map f) (hf : ∀ r : DeliveryEvent, r.Becomes (f r))
    (hprojected : ∀ r : DeliveryEvent, (f r).projectedAt = r.projectedAt) : t.Dims t' where
  toMatures := .of_map h hf
  unmarked r' hr' := by
    obtain ⟨r, hr, rfl⟩ := Table.exists_of_mem hr' h
    refine ⟨r, hr, hf r, fun hnew => ?_⟩
    rw [DeliveryEvent.Projected, hprojected r] at hnew
    exact hnew

theorem withdrawWhere (t : DeliveryTable) (p : DeliveryEvent → Prop) [DecidablePred p]
    (now : Timestamp) : t.Dims (t.withdrawWhere p now) := by
  refine of_map (t.rows_withdrawWhere p now) (fun r => .ite fun _ => .withdraw now r)
    fun r => ?_
  split <;> rfl

theorem relabelWhere? [DecidablePred p] (h : t.relabelWhere? p recipient = some t')
    (hp : ∀ r, p r → recipient = .wildcard ∨ r.Projected) : t.Dims t' := by
  refine of_map (Table.update?_eq_some h) (fun r => .ite fun hr => .relabel (hp r hr))
    fun r => ?_
  split <;> rfl

end DeliveryTable.Dims

namespace DeliveryTable.Spares

theorem refl (t : DeliveryTable) : t.Spares t :=
  ⟨.refl t, fun r hr hlive _ => ⟨r, hr, .refl r, hlive⟩,
    fun r hr r' hr' hid => by rw [DeliveryTable.eq_of_rowid hr' hr hid]⟩

theorem trans (h₁ : t₁.Spares t₂) (h₂ : t₂.Spares t₃) :
    t₁.Spares t₃ where
  toMatures := h₁.toMatures.trans h₂.toMatures
  spared r hr hlive hattention := by
    obtain ⟨s, hs, hrs, hlive⟩ := h₁.spared r hr hlive hattention
    have hattention' : ¬ s.Attention := by
      unfold DeliveryEvent.Attention
      rwa [hrs.eventType]
    obtain ⟨u, hu, hsu, hlive⟩ := h₂.spared s hs hlive hattention'
    exact ⟨u, hu, hrs.trans hsu, hlive⟩
  addressed r hr u hu hid := by
    obtain ⟨s, hs, hrs⟩ := h₁.kept r hr
    rw [h₂.addressed s hs u hu (hid.trans hrs.rowid.symm)]
    exact h₁.addressed r hr s hs hrs.rowid

instance : IsPreorder DeliveryTable DeliveryTable.Spares where
  refl := refl
  trans _ _ _ := trans

theorem of_map (h : t'.rows = t.rows.map f) (hf : ∀ r : DeliveryEvent, r.Becomes (f r))
    (hrecipient : ∀ r : DeliveryEvent, (f r).recipient = r.recipient)
    (hlive : ∀ r ∈ t, r.Live → ¬ r.Attention → (f r).Live) : t.Spares t' where
  toMatures := .of_map h hf
  spared r hr hl hattention := ⟨f r, Table.apply_mem h hr, hf r, hlive r hr hl hattention⟩
  addressed r hr r' hr' hid := by
    obtain ⟨a, ha, rfl⟩ := Table.exists_of_mem hr' h
    rw [hrecipient a, DeliveryTable.eq_of_rowid ha hr ((hf a).rowid.symm.trans hid)]

theorem of_insert (h : t.insert? a = some t') (ha : a.Projected) : t.Spares t' where
  toMatures := .of_insert h ha
  spared r hr hlive _ := ⟨r, (Table.mem_of_insert? h).mpr (.inl hr), .refl r, hlive⟩
  addressed r hr r' hr' hid := by
    rcases (Table.mem_of_insert? h).mp hr' with hold | rfl
    · rw [DeliveryTable.eq_of_rowid hold hr hid]
    · exact absurd hid (Nat.ne_of_gt ((Table.insert?_eq_some h).1 r hr).rowid)

theorem withdrawWhere (t : DeliveryTable) [DecidablePred p] (hp : ∀ r, p r → r.Attention)
    (now : Timestamp) : t.Spares (t.withdrawWhere p now) := by
  refine of_map (t.rows_withdrawWhere p now) (fun r => .ite fun _ => .withdraw now r)
    (fun r => ?_) fun r _ hlive hattention => ?_
  · split <;> rfl
  · rw [if_neg fun h => hattention (hp r h)]
    exact hlive

theorem projectWhere (t : DeliveryTable) (p : DeliveryEvent → Prop) [DecidablePred p]
    (now : Timestamp) : t.Spares (t.projectWhere p now) := by
  refine of_map (t.rows_projectWhere p now) (fun r => .ite fun _ => .project now r)
    (fun r => ?_) fun r _ hlive _ => ?_
  · split <;> rfl
  · split <;> exact hlive

end DeliveryTable.Spares

/-! ### What a label sees -/

/-- A projected live row addressed to the label, beyond the label's cursor. -/
abbrev Journal.Unread (j : Journal) (label : Label) (r : DeliveryEvent) : Prop :=
  r.AddressedTo label ∧ r.Projected ∧ r.Live ∧ j.position label r.streamId < r.streamSeq

/-- `_label_has_unread_delivery`. -/
def Journal.labelHasUnreadDelivery (j : Journal) (label : Label) : Bool :=
  j.delivery.rows.any fun r => j.Unread label r

/-- `_cursor_labels_for_delivery_invalidation`: does the invalidation for a recipient
reach this label's cursor? -/
def invalidates (recipient : Recipient) (excludeLabel : Option Label) (label : Label) : Prop :=
  (recipient = .wildcard ∨ recipient = .label label) ∧ excludeLabel ≠ some label

instance (recipient : Recipient) (excludeLabel : Option Label) (label : Label) :
    Decidable (invalidates recipient excludeLabel label) := by
  unfold invalidates
  infer_instance

/-- `_invalidate_delivery_cursor_snapshots`: `controller_cursors` with the snapshot
tokens bumped whose pending view can change for a delivery row. -/
def Journal.invalidateDeliveryCursorSnapshots (j : Journal) (recipient : Recipient)
    (updatedAt : Timestamp) (excludeLabel : Option Label) :
    KeyedTable ControllerCursor.label :=
  j.cursors.update
    (fun c =>
      if invalidates recipient excludeLabel c.label then
        { c with
          cursorVersion := c.cursorVersion + 1
          updatedAt := updatedAt
          backlogPending := j.labelHasUnreadDelivery c.label }
      else c)
    (by intro a b h; split <;> split <;> exact h)

/-- Every cursor keeps its label and generation. -/
def SameGenerations (t t' : KeyedTable ControllerCursor.label) : Prop :=
  ∀ c ∈ t, ∃ c' ∈ t', c'.label = c.label ∧ c'.registryGeneration = c.registryGeneration

theorem SameGenerations.refl (t : KeyedTable ControllerCursor.label) :
    SameGenerations t t := fun c hc => ⟨c, hc, rfl, rfl⟩

theorem SameGenerations.trans {t₁ t₂ t₃ : KeyedTable ControllerCursor.label}
    (h₁ : SameGenerations t₁ t₂) (h₂ : SameGenerations t₂ t₃) : SameGenerations t₁ t₃ := by
  intro c hc
  obtain ⟨d, hd, hlabel, hgen⟩ := h₁ c hc
  obtain ⟨e, he, hlabel', hgen'⟩ := h₂ d hd
  exact ⟨e, he, hlabel'.trans hlabel, hgen'.trans hgen⟩

theorem SameGenerations.of_invalidate {t t' : KeyedTable ControllerCursor.label}
    {ex : Option Label} (h : t' = j.invalidateDeliveryCursorSnapshots recipient now ex)
    (ht : j.cursors = t) :
    SameGenerations t t' := by
  subst h ht
  intro c hc
  refine ⟨_, Table.apply_mem rfl hc, ?_⟩
  split <;> exact ⟨rfl, rfl⟩

/-- Only mail tables differ: delivery rows go by `R`, cursors keep their generations, and
the attention tables may change. -/
structure MailWrite (R : DeliveryTable → DeliveryTable → Prop) (j j' : Journal) : Prop where
  delivery : R j.delivery j'.delivery
  cursors : SameGenerations j.cursors j'.cursors
  rest : ∃ delivery cursors attention systemAttention, j' = { j with
    delivery := delivery
    cursors := cursors
    attention := attention
    systemAttention := systemAttention }

namespace MailWrite

variable {R : DeliveryTable → DeliveryTable → Prop}

theorem refl [IsPreorder DeliveryTable R] (j : Journal) : MailWrite R j j :=
  ⟨refl_of R _, .refl _, _, _, _, _, rfl⟩

theorem trans [IsPreorder DeliveryTable R] {j₁ j₂ j₃ : Journal} (h₁ : MailWrite R j₁ j₂)
    (h₂ : MailWrite R j₂ j₃) : MailWrite R j₁ j₃ := by
  refine ⟨trans_of R h₁.delivery h₂.delivery, h₁.cursors.trans h₂.cursors, ?_⟩
  obtain ⟨_, _, _, _, rfl⟩ := h₁.rest
  obtain ⟨_, _, _, _, rfl⟩ := h₂.rest
  exact ⟨_, _, _, _, rfl⟩

end MailWrite

/-- A write of mail tables that leaves `system_attention_items` alone. -/
structure MailOnly (R : DeliveryTable → DeliveryTable → Prop) (j j' : Journal) : Prop
    extends MailWrite R j j' where
  systemAttention : j'.systemAttention = j.systemAttention

namespace MailOnly

variable {R : DeliveryTable → DeliveryTable → Prop} [IsPreorder DeliveryTable R]

theorem refl (j : Journal) : MailOnly R j j := ⟨.refl j, rfl⟩

theorem trans {j₁ j₂ j₃ : Journal} (h₁ : MailOnly R j₁ j₂) (h₂ : MailOnly R j₂ j₃) :
    MailOnly R j₁ j₃ :=
  ⟨h₁.toMailWrite.trans h₂.toMailWrite, h₂.systemAttention.trans h₁.systemAttention⟩

end MailOnly

/-! ### Assigning an event -/

/-- The content of an assignment: the arguments of `record_delivery_event` that end up
in the row. -/
structure Assignment where
  recipient : Recipient
  event : EventId
  streamId : String
  streamSeq : ℕ
  carrierPath : String
  eventType : String
  wakeClass : WakeClass
  createdAt : Timestamp

/-- The row an assignment becomes. -/
def Assignment.row (a : Assignment) (rowid : ℕ) : DeliveryEvent where
  rowid := rowid
  recipient := a.recipient
  event := a.event
  streamId := a.streamId
  streamSeq := a.streamSeq
  carrierPath := a.carrierPath
  eventType := a.eventType
  wakeClass := a.wakeClass
  createdAt := a.createdAt
  projectedAt := none
  withdrawnAt := none

/-- The stored columns a repeated assignment must agree with (`expected`). -/
def Assignment.Agrees (a : Assignment) (r : DeliveryEvent) : Prop :=
  r.streamId = a.streamId ∧ r.streamSeq = a.streamSeq ∧ r.carrierPath = a.carrierPath ∧
    r.eventType = a.eventType ∧ r.wakeClass = a.wakeClass

instance (a : Assignment) (r : DeliveryEvent) : Decidable (a.Agrees r) := by
  unfold Assignment.Agrees
  infer_instance

/-- The rows a replacement key names.  A consumed wildcard is renamed to its
processor's label, so a `*` key names the event's rows under every recipient. -/
def Replaces (replaces : List (Recipient × EventId)) (r : DeliveryEvent) : Prop :=
  ∃ k ∈ replaces, (k.1 = .wildcard ∨ k.1 = r.recipient) ∧ k.2 = r.event

instance (replaces : List (Recipient × EventId)) (r : DeliveryEvent) :
    Decidable (Replaces replaces r) := by
  unfold Replaces
  infer_instance

/-- The recipient an assignment takes: a label without an `ACTIVE` lease falls back to
the wildcard when the caller asks for it. -/
def Journal.effectiveRecipient (j : Journal) (recipient : Recipient)
    (fallbackToWildcardIfInactive : Bool) : Recipient :=
  match recipient with
  | .wildcard => .wildcard
  | .label l =>
    if fallbackToWildcardIfInactive ∧ j.activeLease l = none then .wildcard else .label l

/-- `record_delivery_event`.  The value is the row the event has for the effective
recipient, as it was read or inserted. -/
def Journal.recordDeliveryEvent (j : Journal) (a : Assignment)
    (replaces : List (Recipient × EventId)) (fallbackToWildcardIfInactive : Bool)
    (now : Timestamp) : Tx DeliveryEvent :=
  if a.streamSeq < 1 then .error (.valueError "stream_seq must be a positive integer")
  else if (a.recipient, a.event) ∈ replaces then
    .error (.valueError "delivery event cannot replace itself")
  else
    let a := { a with
      recipient := j.effectiveRecipient a.recipient fallbackToWildcardIfInactive }
    let replaced := j.delivery.withdrawWhere (Replaces replaces) now
    match j.delivery.get? a.recipient a.event with
    | some existing =>
      if a.Agrees existing then .ok (existing, { j with delivery := replaced })
      else .error (.journalIntegrity ("delivery event identity conflict: same " ++
        "recipient/origin/event_uuid has different content"))
    | none =>
      let row := a.row replaced.nextRowid
      match replaced.insert? row with
      | none => .error (.constraint "delivery_events")
      | some inserted =>
        let j := { j with delivery := inserted }
        .ok (row, { j with
          cursors := j.invalidateDeliveryCursorSnapshots a.recipient now none })

theorem recordDeliveryEvent_write {a : Assignment} {replaces : List (Recipient × EventId)}
    {fallback : Bool} (h : j.recordDeliveryEvent a replaces fallback now = .ok (r, j')) :
    MailOnly DeliveryTable.Evolves j j' := by
  unfold Journal.recordDeliveryEvent at h
  split at h
  · cases h
  split at h
  · cases h
  have hreplaced :=
    (DeliveryTable.Dims.withdrawWhere j.delivery (Replaces replaces) now).toEvolves
  simp only at h
  split at h
  · split at h
    · cases h
      exact ⟨⟨hreplaced, .refl _, _, _, _, _, rfl⟩, rfl⟩
    · cases h
  · split at h
    · cases h
    · cases h
      exact ⟨⟨hreplaced.trans (.of_insert ‹_›), .of_invalidate rfl rfl, _, _, _, _, rfl⟩, rfl⟩

/-- A row after recording is a row from before, no more visible than it was, or the new
assignment of the event, which the effective recipient did not have. -/
theorem mem_of_recordDeliveryEvent {a : Assignment} {replaces : List (Recipient × EventId)}
    {fallback : Bool} {v : DeliveryEvent}
    (h : j.recordDeliveryEvent a replaces fallback now = .ok (v, j')) {r' : DeliveryEvent}
    (hr' : r' ∈ j'.delivery) :
    (∃ r ∈ j.delivery, r.Becomes r' ∧ (r'.Projected → r.Projected)) ∨
      (∃ rowid, r' = Assignment.row { a with
          recipient := j.effectiveRecipient a.recipient fallback } rowid) ∧
        j.delivery.get? (j.effectiveRecipient a.recipient fallback) a.event = none := by
  have hreplaced := DeliveryTable.Dims.withdrawWhere j.delivery (Replaces replaces) now
  unfold Journal.recordDeliveryEvent at h
  split at h
  · cases h
  split at h
  · cases h
  simp only at h
  split at h
  · split at h
    · cases h
      exact .inl (hreplaced.unmarked r' hr')
    · cases h
  · rename_i hnone
    split at h
    · cases h
    · cases h
      rcases (Table.mem_of_insert? ‹_›).mp hr' with hold | rfl
      · exact .inl (hreplaced.unmarked r' hold)
      · exact .inr ⟨⟨_, rfl⟩, hnone⟩

/-! ### Making an assignment visible -/

/-- What `mark_delivery_projected` reports. -/
structure DeliveryProjection where
  row : DeliveryEvent
  recipientCursors : List ControllerCursor
  newlyProjected : Bool

/-- The row `mark_delivery_projected` acts on: the assignment, or the live wildcard it
was re-homed to. -/
def Journal.projectionTarget (j : Journal) (recipient : Recipient) (event : EventId) :
    Option DeliveryEvent :=
  match j.delivery.get? recipient event with
  | some row => some row
  | none =>
    match j.delivery.get? .wildcard event with
    | some row => if row.Live then some row else none
    | none => none

/-- The cursors of the `ACTIVE` leases a recipient names, by label. -/
def Journal.recipientCursors (j : Journal) (recipient : Recipient) :
    List ControllerCursor :=
  (j.cursors.rows.filter fun c =>
    ∃ l ∈ j.leases.rows, l.Active ∧ c.label = l.label ∧
      c.registryGeneration = l.generation ∧
      (recipient = .wildcard ∨ recipient = .label l.label)).insertionSort
    fun a b => a.label ≤ b.label

/-- `mark_delivery_projected`. -/
def Journal.markDeliveryProjected (j : Journal) (recipient : Recipient) (event : EventId)
    (now : Timestamp) : Tx DeliveryProjection :=
  match j.projectionTarget recipient event with
  | none => .error (.casMismatch "delivery projection lost: assignment row is absent")
  | some row =>
    let projectedAt := row.projectedAt.getD now
    let marked := { j with
      delivery := j.delivery.projectWhere
        (fun r => r.recipient = row.recipient ∧ r.event = row.event) now }
    let j' :=
      if row.Projected then marked
      else { marked with
        cursors :=
          marked.invalidateDeliveryCursorSnapshots row.recipient projectedAt none }
    .ok (⟨{ row with projectedAt := some projectedAt },
      j'.recipientCursors row.recipient, decide (row.projectedAt = none)⟩, j')

theorem markDeliveryProjected_write {v : DeliveryProjection}
    (h : j.markDeliveryProjected recipient event now = .ok (v, j')) :
    MailOnly DeliveryTable.Spares j j' := by
  unfold Journal.markDeliveryProjected at h
  split at h
  · cases h
  · cases h
    split
    · exact ⟨⟨.projectWhere _ _ _, .refl _, _, _, _, _, rfl⟩, rfl⟩
    · exact ⟨⟨.projectWhere _ _ _, .of_invalidate rfl rfl, _, _, _, _, rfl⟩, rfl⟩

/-! ### Withdrawing an assignment -/

/-- `withdraw_delivery_event`. -/
def Journal.withdrawDeliveryEvent (j : Journal) (recipient : Recipient) (event : EventId)
    (now : Timestamp) : Tx (Option DeliveryEvent) :=
  match j.delivery.get? recipient event with
  | none => .ok (none, j)
  | some row =>
    let withdrawn := { j with
      delivery := j.delivery.withdrawWhere
        (fun r => r.recipient = recipient ∧ r.event = event) now }
    let j' :=
      if row.Live then { withdrawn with
        cursors := withdrawn.invalidateDeliveryCursorSnapshots recipient now none }
      else withdrawn
    .ok (some (row.withdraw now), j')

theorem withdrawDeliveryEvent_write {v : Option DeliveryEvent}
    (h : j.withdrawDeliveryEvent recipient event now = .ok (v, j')) :
    MailOnly DeliveryTable.Dims j j' := by
  unfold Journal.withdrawDeliveryEvent at h
  split at h
  · cases h
    exact .refl j
  · cases h
    split
    · exact ⟨⟨.withdrawWhere _ _ _, .of_invalidate rfl rfl, _, _, _, _, rfl⟩, rfl⟩
    · exact ⟨⟨.withdrawWhere _ _ _, .refl _, _, _, _, _, rfl⟩, rfl⟩

/-! ### Re-homing a retired controller's assignments -/

/-- An assignment retirement moves: live, addressed to the label, and never visible to
it or beyond its cursor. -/
def Journal.RehomeCandidate (j : Journal) (label : Label) (r : DeliveryEvent) : Prop :=
  r.recipient = .label label ∧ r.Live ∧
    (¬ r.Projected ∨ j.position label r.streamId < r.streamSeq)

instance (j : Journal) (label : Label) (r : DeliveryEvent) :
    Decidable (j.RehomeCandidate label r) := by
  unfold Journal.RehomeCandidate
  infer_instance

/-- A live wildcard already carries the row's event or its stream position. -/
def Journal.CarriedByWildcard (j : Journal) (r : DeliveryEvent) : Prop :=
  ∃ w ∈ j.delivery.rows, w.recipient = .wildcard ∧ w.Live ∧
    (w.event = r.event ∨ w.position = r.position)

instance (j : Journal) (r : DeliveryEvent) : Decidable (j.CarriedByWildcard r) := by
  unfold Journal.CarriedByWildcard
  infer_instance

/-- `_rehome_retired_delivery_events`: candidates a wildcard already carries are
withdrawn, the others are relabelled `*`.  The value is the number of rows changed. -/
def Journal.rehomeRetiredDeliveryEvents (j : Journal) (retired : Label)
    (now : Timestamp) : Tx ℕ :=
  let duplicate := fun r => j.RehomeCandidate retired r ∧ j.CarriedByWildcard r
  let j' := { j with delivery := j.delivery.withdrawWhere duplicate now }
  match j'.delivery.relabelWhere? (j'.RehomeCandidate retired) .wildcard with
  | none => .error (.constraint "delivery_events")
  | some moved =>
    .ok ((j.delivery.rows.countP fun r => duplicate r) +
      (j'.delivery.rows.countP fun r => j'.RehomeCandidate retired r),
      { j with delivery := moved })

theorem Journal.rehomeRetiredDeliveryEvents_eq_ok {n : ℕ}
    (h : j.rehomeRetiredDeliveryEvents retired now = .ok (n, j')) :
    ∃ i : Journal, i = { j with
        delivery := j.delivery.withdrawWhere
          (fun r => j.RehomeCandidate retired r ∧ j.CarriedByWildcard r) now } ∧
      ∃ moved, i.delivery.relabelWhere? (i.RehomeCandidate retired) .wildcard = some moved ∧
        j' = { j with delivery := moved } := by
  unfold Journal.rehomeRetiredDeliveryEvents at h
  simp only at h
  split at h
  · cases h
  · cases h
    exact ⟨_, rfl, _, ‹_›, rfl⟩

theorem Journal.rehomeRetiredDeliveryEvents_of_moved {i : Journal} {moved : DeliveryTable}
    (hi : i = { j with
      delivery := j.delivery.withdrawWhere
        (fun r => j.RehomeCandidate retired r ∧ j.CarriedByWildcard r) now })
    (h : i.delivery.relabelWhere? (i.RehomeCandidate retired) .wildcard = some moved) :
    ∃ n, j.rehomeRetiredDeliveryEvents retired now = .ok (n, { j with delivery := moved }) := by
  subst hi
  unfold Journal.rehomeRetiredDeliveryEvents
  simp only
  split
  · rename_i hnone
    exact absurd (hnone.symm.trans h) (by simp)
  · rename_i hsome
    cases hsome.symm.trans h
    exact ⟨_, rfl⟩

theorem rehomeRetiredDeliveryEvents_write {n : ℕ}
    (h : j.rehomeRetiredDeliveryEvents retired now = .ok (n, j')) :
    MailOnly DeliveryTable.Dims j j' := by
  obtain ⟨i, rfl, moved, hmoved, rfl⟩ := Journal.rehomeRetiredDeliveryEvents_eq_ok h
  exact ⟨⟨.trans (.withdrawWhere _ _ _) (.relabelWhere? hmoved fun _ _ => .inl rfl),
    .refl _, _, _, _, _, rfl⟩, rfl⟩

/-! ### Reconciling a terminal fan-out -/

/-- The recipients `_reconcile_terminal_delivery_recipients` keeps: the requested ones,
and a live wildcard standing in for a requested one that is no longer live. -/
def Journal.Preserved (j : Journal) (event : EventId) (requested : List Recipient)
    (recipient : Recipient) : Prop :=
  recipient ∈ requested ∨ (recipient = .wildcard ∧
    ∃ q ∈ requested, ∀ r ∈ j.delivery.rows, ¬ (r.Live ∧ r.event = event ∧ r.recipient = q))

instance (j : Journal) (event : EventId) (requested : List Recipient)
    (recipient : Recipient) : Decidable (j.Preserved event requested recipient) := by
  unfold Journal.Preserved
  infer_instance

/-- A live assignment of the event that is not kept (`stale`). -/
def Journal.StaleRecipient (j : Journal) (event : EventId) (requested : List Recipient)
    (r : DeliveryEvent) : Prop :=
  r.Live ∧ r.event = event ∧ ¬ j.Preserved event requested r.recipient

instance (j : Journal) (event : EventId) (requested : List Recipient)
    (r : DeliveryEvent) : Decidable (j.StaleRecipient event requested r) := by
  unfold Journal.StaleRecipient
  infer_instance

/-- Withdraw one stale recipient's assignment and bump the tokens it was part of. -/
def Journal.withdrawStale (event : EventId) (now : Timestamp) (j : Journal)
    (recipient : Recipient) : Journal :=
  let j := { j with
    delivery := j.delivery.withdrawWhere
      (fun r => r.recipient = recipient ∧ r.event = event) now }
  { j with cursors := j.invalidateDeliveryCursorSnapshots recipient now none }

/-- `_reconcile_terminal_delivery_recipients`.  The stale recipients are handled in
table order; the source's order (by name) changes nothing but the order of the value. -/
def Journal.reconcileTerminalDeliveryRecipients (j : Journal) (event : EventId)
    (requested : List Recipient) (now : Timestamp) : Tx (List Recipient) :=
  let stale := (j.delivery.rows.filter fun r => j.StaleRecipient event requested r).map
    DeliveryEvent.recipient
  .ok (stale, stale.foldl (Journal.withdrawStale event now) j)

theorem withdrawStale_write (event : EventId) (now : Timestamp) (j : Journal)
    (recipient : Recipient) :
    MailOnly DeliveryTable.Dims j (j.withdrawStale event now recipient) :=
  ⟨⟨.withdrawWhere _ _ _, .of_invalidate rfl rfl, _, _, _, _, rfl⟩, rfl⟩

theorem reconcileTerminalDeliveryRecipients_write {requested : List Recipient}
    {v : List Recipient}
    (h : j.reconcileTerminalDeliveryRecipients event requested now = .ok (v, j')) :
    MailOnly DeliveryTable.Dims j j' := by
  unfold Journal.reconcileTerminalDeliveryRecipients at h
  cases h
  generalize List.map DeliveryEvent.recipient _ = stale
  induction stale generalizing j with
  | nil => exact .refl j
  | cons recipient stale ih => exact (withdrawStale_write event now j recipient).trans ih

end GoalFlight
