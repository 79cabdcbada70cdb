import GoalFlight.Journal.Peek

/-!
# Draining a label's mail

`set_cursor` without positions moves the label past everything it can read, and adopts the wildcard
rows on the way; `adoptAll_rows` says what the adoption makes of each row of the table.

A wildcard is not renamed when the label has a row for its event, or a *live row at its stream
position*: it is then withdrawn as a duplicate.  On a stream numbered for each recipient separately,
as `attention` is, that row can be another event's, and then the drained event is left without any
row of the label.  `setCursor_drained_iff` says that this is the one way a drain fails.
-/

namespace GoalFlight

open Relational

variable {r : DeliveryEvent} {moved : DeliveryEvent → Prop}

/-! ### What adoption makes of a row -/

/-- A row after an adoption: a wildcard moved past is withdrawn or becomes the label's. -/
def DeliveryTable.adoptedRow (t : DeliveryTable) (label : Label) (now : Timestamp)
    (moved : DeliveryEvent → Prop) [DecidablePred moved] (r : DeliveryEvent) : DeliveryEvent :=
  if moved r then
    if t.CarriedExactly label r then r.withdraw now else r.relabel (.label label)
  else r

section Adopt

variable {t : DeliveryTable} {label : Label} {stream : String} {currentPosition position : ℕ}
  {now : Timestamp}

theorem DeliveryTable.adoptedRow_of_not [DecidablePred moved] (h : ¬ moved r) :
    t.adoptedRow label now moved r = r := if_neg h

@[simp] theorem DeliveryTable.event_adoptedRow [DecidablePred moved] :
    (t.adoptedRow label now moved r).event = r.event := by
  unfold DeliveryTable.adoptedRow
  split
  · split <;> rfl
  · rfl

@[simp] theorem DeliveryTable.position_adoptedRow [DecidablePred moved] :
    (t.adoptedRow label now moved r).position = r.position := by
  unfold DeliveryTable.adoptedRow
  split
  · split <;> rfl
  · rfl

@[simp] theorem DeliveryTable.rowid_adoptedRow [DecidablePred moved] :
    (t.adoptedRow label now moved r).rowid = r.rowid := by
  unfold DeliveryTable.adoptedRow
  split
  · split <;> rfl
  · rfl

/-- The renaming of an adoption is never refused: what it would clash with was withdrawn
before. -/
theorem DeliveryTable.exists_adopt (t : DeliveryTable) (label : Label) (stream : String)
    (currentPosition position : ℕ) (now : Timestamp) :
    ∃ t' n, t.adopt label stream currentPosition position now = some (t', n) := by
  have hrelabel : ∃ t', (t.withdrawWhere (fun r => Adoptable stream currentPosition position r ∧
      t.CarriedExactly label r) now).relabelWhere? (Adoptable stream currentPosition position)
        (.label label) = some t' := by
    refine DeliveryTable.exists_relabelWhere? (fun a _ b _ ha hb => ha.1.trans hb.1.symm)
      fun a ha b hb hpa hpb hrecipient => ?_
    obtain ⟨ha', -, hclear⟩ := DeliveryTable.mem_withdrawWhere_live.mp ⟨ha, hpa.2.2.2.2.2⟩
    have hnot : ¬ t.CarriedExactly label a := fun hcarried => hclear ⟨hpa, hcarried⟩
    obtain ⟨r, hr, rfl⟩ := Table.exists_of_mem hb rfl
    split at hrecipient
    · rename_i hwithdrawn
      have hwild : r.recipient = .wildcard := hwithdrawn.1.1
      exact absurd (hwild.symm.trans hrecipient) (by simp)
    · rename_i hkept
      rw [if_neg hkept]
      refine ⟨fun hevent => hnot ⟨r, hr, hrecipient, .inl hevent⟩, ?_⟩
      rintro ⟨hlive, -, hposition⟩
      exact hnot ⟨r, hr, hrecipient, .inr ⟨hposition, hlive⟩⟩
  obtain ⟨t', ht'⟩ := hrelabel
  unfold DeliveryTable.adopt
  simp only [ht', Option.map_some]
  exact ⟨t', _, rfl⟩

theorem DeliveryTable.adopt_rows {t' : DeliveryTable} {n : ℕ}
    (h : t.adopt label stream currentPosition position now = some (t', n)) :
    t'.rows = t.rows.map (t.adoptedRow label now
      (Adoptable stream currentPosition position)) := by
  obtain ⟨i, rfl, hrelabel⟩ := DeliveryTable.adopt_eq_some h
  rw [Table.update?_eq_some hrelabel, DeliveryTable.rows_withdrawWhere, List.map_map]
  refine List.map_congr_left fun r _ => ?_
  show (if Adoptable stream currentPosition position
    (if Adoptable stream currentPosition position r ∧ t.CarriedExactly label r then
      r.withdraw now else r) then _ else _) = _
  unfold DeliveryTable.adoptedRow
  by_cases hmoved : Adoptable stream currentPosition position r
  · by_cases hcarried : t.CarriedExactly label r
    · have hdead : ¬ Adoptable stream currentPosition position (r.withdraw now) :=
        fun hadoptable => DeliveryEvent.not_live_withdraw now r hadoptable.2.2.2.2.2
      simp only [if_pos (And.intro hmoved hcarried), if_neg hdead, if_pos hmoved,
        if_pos hcarried]
    · have hkept : ¬ (Adoptable stream currentPosition position r ∧ t.CarriedExactly label r) :=
        fun hboth => hcarried hboth.2
      simp only [if_neg hkept, if_pos hmoved, if_neg hcarried]
  · have hkept : ¬ (Adoptable stream currentPosition position r ∧ t.CarriedExactly label r) :=
      fun hboth => hmoved hboth.1
    simp only [if_neg hkept, if_neg hmoved]

end Adopt

/-- A wildcard row some written position moves past. -/
def AdoptedBy (current : String → ℕ) (advances : List (String × ℕ)) (r : DeliveryEvent) :
    Prop :=
  ∃ p ∈ advances, Adoptable p.1 (current p.1) p.2 r

instance (current : String → ℕ) (advances : List (String × ℕ)) :
    DecidablePred (AdoptedBy current advances) := fun r => by
  unfold AdoptedBy
  infer_instance

variable {label : Label}

theorem not_adoptedBy_adopted {t : DeliveryTable} {now : Timestamp}
    [DecidablePred moved] {current : String → ℕ} {advances : List (String × ℕ)} (h : moved r) :
    ¬ AdoptedBy current advances (t.adoptedRow label now moved r) := by
  rintro ⟨p, -, hwild, -, -, -, -, hlive⟩
  unfold DeliveryTable.adoptedRow at hwild hlive
  rw [if_pos h] at hwild hlive
  split at hlive
  · exact DeliveryEvent.not_live_withdraw now r hlive
  · rename_i hcarried
    rw [if_neg hcarried] at hwild
    cases hwild

/-- Adopting on another stream does not change whether the label carries a wildcard: no
two wildcards share an event. -/
theorem DeliveryTable.carriedExactly_adopt {t t' : DeliveryTable}
    {stream : String} {currentPosition position : ℕ} {now : Timestamp} {n : ℕ}
    (h : t.adopt label stream currentPosition position now = some (t', n))
    {w : DeliveryEvent} (hw : w ∈ t) (hwild : w.recipient = .wildcard)
    (hstream : w.streamId ≠ stream) :
    t'.CarriedExactly label w ↔ t.CarriedExactly label w := by
  have hrows := DeliveryTable.adopt_rows h
  constructor
  · rintro ⟨r', hr', hrecipient, hsame⟩
    obtain ⟨r, hr, rfl⟩ := Table.exists_of_mem hr' hrows
    by_cases hmoved : Adoptable stream currentPosition position r
    · exfalso
      rw [DeliveryTable.event_adoptedRow, DeliveryTable.position_adoptedRow] at hsame
      rcases hsame with hevent | ⟨hposition, -⟩
      · have heq : r = w := DeliveryTable.eq_of_key hr hw (hmoved.1.trans hwild.symm) hevent
        exact hstream (heq ▸ hmoved.2.1)
      · exact hstream ((congrArg Prod.fst hposition).symm.trans hmoved.2.1)
    · rw [DeliveryTable.adoptedRow_of_not hmoved] at hrecipient hsame
      exact ⟨r, hr, hrecipient, hsame⟩
  · rintro ⟨r, hr, hrecipient, hsame⟩
    have hmoved : ¬ Adoptable stream currentPosition position r := by
      rintro ⟨hwild', -⟩
      rw [hrecipient] at hwild'
      cases hwild'
    have hr' := Table.apply_mem hrows hr
    rw [DeliveryTable.adoptedRow_of_not hmoved] at hr'
    exact ⟨r, hr', hrecipient, hsame⟩

/-- **Adoption.**  Adopting along distinct streams is never refused, and makes of each row
what its own stream's adoption makes of it. -/
theorem DeliveryTable.adoptAll_rows {current : String → ℕ} {now : Timestamp}
    {advances : List (String × ℕ)} (hdistinct : advances.Pairwise fun a b => a.1 ≠ b.1) :
    ∀ t : DeliveryTable, ∃ t' n,
      t.adoptAll label current now advances = some (t', n) ∧
        t'.rows = t.rows.map (t.adoptedRow label now (AdoptedBy current advances)) := by
  induction advances with
  | nil =>
    refine fun t => ⟨t, 0, rfl, ?_⟩
    refine ((List.map_congr_left fun r _ => ?_).trans (List.map_id _)).symm
    exact DeliveryTable.adoptedRow_of_not fun ⟨_, hp, _⟩ => List.not_mem_nil hp
  | cons p rest ih =>
    intro t
    obtain ⟨hfirst, hrest⟩ := List.pairwise_cons.mp hdistinct
    obtain ⟨i, k, hadopt⟩ := t.exists_adopt label p.1 (current p.1) p.2 now
    obtain ⟨t', n, hall, hrows⟩ := ih hrest i
    refine ⟨t', k + n, ?_, ?_⟩
    · unfold DeliveryTable.adoptAll
      simp only [hadopt, hall, Option.map_some]
    rw [hrows, DeliveryTable.adopt_rows hadopt, List.map_map]
    refine List.map_congr_left fun r hr => ?_
    simp only [Function.comp_apply]
    by_cases hmoved : Adoptable p.1 (current p.1) p.2 r
    · -- The first stream is the row's own: what it makes of the row stays.
      rw [DeliveryTable.adoptedRow_of_not (not_adoptedBy_adopted hmoved)]
      have hpast : AdoptedBy current (p :: rest) r := ⟨p, List.mem_cons_self, hmoved⟩
      unfold DeliveryTable.adoptedRow
      rw [if_pos hmoved, if_pos hpast]
    · rw [DeliveryTable.adoptedRow_of_not hmoved]
      have hpast : AdoptedBy current (p :: rest) r ↔ AdoptedBy current rest r := by
        simp [AdoptedBy, hmoved]
      unfold DeliveryTable.adoptedRow
      by_cases hlater : AdoptedBy current rest r
      · obtain ⟨q, hq, hadoptable⟩ := id hlater
        have hcarried := DeliveryTable.carriedExactly_adopt hadopt hr hadoptable.1
          fun heq => hfirst q hq (heq.symm.trans hadoptable.2.1)
        rw [if_pos hlater, if_pos (hpast.mpr hlater)]
        simp only [hcarried]
      · rw [if_neg hlater, if_neg fun h => hlater (hpast.mp h)]

/-! ### Draining -/

/-- **Drained.**  What a drain promises: nothing is pending, every event that was pending
has a row addressed to the label, no wildcard row that was pending stays live under the
wildcard, and the other labels' rows and positions are as they were. -/
structure Journal.Drained (j j' : Journal) (label : Label) : Prop where
  empty : ∀ wakingOnly streamIds limit rows,
    j'.pendingDeliveryEvents label wakingOnly streamIds limit = .ok rows → rows = []
  addressed : ∀ r ∈ j.delivery, j.Unread label r →
    ∃ r' ∈ j'.delivery, r'.recipient = .label label ∧ r'.event = r.event
  consumed : ∀ r ∈ j.delivery, j.Unread label r → r.recipient = .wildcard →
    ∀ r' ∈ j'.delivery, r'.rowid = r.rowid → ¬ (r'.recipient = .wildcard ∧ r'.Live)
  rows : ∀ other, other ≠ label → ∀ r, r.recipient = .label other →
    (r ∈ j'.delivery ↔ r ∈ j.delivery)
  positions : ∀ other, other ≠ label → ∀ stream,
    j'.position other stream = j.position other stream

/-- A wildcard the label has pending shares its stream position with a live row of the
label that is another event's, and the label has no row of the wildcard's event. -/
def Journal.PositionTaken (j : Journal) (label : Label) : Prop :=
  ∃ w ∈ j.delivery, (w.recipient = .wildcard ∧ j.Unread label w) ∧
    (∃ r ∈ j.delivery, r.recipient = .label label ∧ r.position = w.position ∧ r.Live) ∧
    ∀ r ∈ j.delivery, r.recipient = .label label → r.event ≠ w.event

instance (j : Journal) (label : Label) : Decidable (j.PositionTaken label) := by
  unfold Journal.PositionTaken
  infer_instance

theorem mem_drainTargets {j : Journal} {p : String × ℕ}
    (hp : p ∈ j.cursorTargets label none) :
    ∃ r ∈ j.delivery, j.Unread label r ∧ r.position = p := by
  obtain ⟨⟨r, hr, hposition⟩, -⟩ := mem_streamMaxima hp
  obtain ⟨hr, hunread⟩ := List.mem_filter.mp hr
  exact ⟨r, hr, by simpa using hunread, hposition⟩

theorem exists_mem_drainTargets {j : Journal} (hr : r ∈ j.delivery)
    (hunread : j.Unread label r) :
    ∃ p ∈ j.cursorTargets label none, p.1 = r.streamId ∧ r.streamSeq ≤ p.2 :=
  exists_mem_streamMaxima (List.mem_filter.mpr ⟨hr, by simpa using hunread⟩)

theorem adoptedBy_drain_iff {j : Journal} (hr : r ∈ j.delivery) :
    AdoptedBy (j.position label) (j.cursorTargets label none).rows r ↔
      r.recipient = .wildcard ∧ j.Unread label r := by
  constructor
  · rintro ⟨p, -, hwild, hstream, hbeyond, -, hprojected, hlive⟩
    rw [← hstream] at hbeyond
    exact ⟨hwild, .inr hwild, hprojected, hlive, hbeyond⟩
  · rintro ⟨hwild, hunread⟩
    obtain ⟨p, hp, hstream, hle⟩ := exists_mem_drainTargets hr hunread
    refine ⟨p, hp, hwild, hstream.symm, ?_, hle, hunread.2.1, hunread.2.2.1⟩
    rw [hstream]
    exact hunread.2.2.2

section Write

variable {j j' : Journal} {label : Label} {generation version : ℕ} {actor : String}
  {now : Timestamp} {v : CursorWrite}

section

variable
  (h : j.writeCursorPositions label generation version (j.cursorTargets label none) actor now = .ok (v, j'))
include h

theorem drain_rows :
    j'.delivery.rows = j.delivery.rows.map (j.delivery.adoptedRow label now
      (AdoptedBy (j.position label) (j.cursorTargets label none).rows)) := by
  obtain ⟨delivery, n, cursors, hadopt, -, rfl⟩ := Journal.writeCursorPositions_eq_ok h
  obtain ⟨t', m, hall, hrows⟩ := @DeliveryTable.adoptAll_rows label (j.position label) now _
    (j.cursorTargets label none).pairwise j.delivery
  rw [hall] at hadopt
  cases hadopt
  exact hrows

/-- A drain leaves the label at or beyond everything it had unread, and never behind. -/
theorem drain_position :
    (∀ stream, j.position label stream ≤ j'.position label stream) ∧
      ∀ r ∈ j.delivery, j.Unread label r → r.streamSeq ≤ j'.position label r.streamId := by
  constructor
  · intro stream
    rcases Journal.position_of_write h label stream with ⟨-, hmem⟩ | hsame
    · obtain ⟨r, -, hunread, hposition⟩ := mem_drainTargets hmem
      obtain ⟨hstream, hseq⟩ := Prod.ext_iff.mp hposition
      have hbeyond := hunread.2.2.2
      rw [show r.streamId = stream from hstream] at hbeyond
      rw [show r.streamSeq = j'.position label stream from hseq] at hbeyond
      exact Nat.le_of_lt hbeyond
    · exact Nat.le_of_eq hsame.symm
  · intro r hr hunread
    obtain ⟨p, hp, hstream, hle⟩ := exists_mem_drainTargets hr hunread
    obtain ⟨delivery, n, cursors, -, -, rfl⟩ := Journal.writeCursorPositions_eq_ok h
    obtain ⟨c, hget, hposition⟩ := writeStreamCursors_get?_of_mem label now
      (j.cursorTargets label none).pairwise hp j.streamCursors
    unfold Journal.position
    rw [← hstream, hget, Option.map_some, Option.getD_some, hposition]
    exact hle

theorem mem_drain_of_label (hr : r ∈ j.delivery) {l : Label} (hl : r.recipient = .label l) :
    r ∈ j'.delivery := by
  have hr' := Table.apply_mem (drain_rows h) hr
  rwa [DeliveryTable.adoptedRow_of_not] at hr'
  intro hmoved
  have hwild := ((adoptedBy_drain_iff hr).mp hmoved).1
  rw [hl] at hwild
  cases hwild

theorem drain_addressed_iff :
    (∀ r ∈ j.delivery, j.Unread label r →
      ∃ r' ∈ j'.delivery, r'.recipient = .label label ∧ r'.event = r.event) ↔
        ¬ j.PositionTaken label := by
  have hrows := drain_rows h
  constructor
  · rintro hall ⟨w, hw, ⟨hwild, hunread⟩, htaken, hnone⟩
    obtain ⟨r', hr', hrecipient, hevent⟩ := hall w hw hunread
    obtain ⟨r, hr, rfl⟩ := Table.exists_of_mem hr' hrows
    rw [DeliveryTable.event_adoptedRow] at hevent
    by_cases hmoved : AdoptedBy (j.position label) (j.cursorTargets label none).rows r
    · -- Only the wildcard's own row has its event, and that row was withdrawn.
      have hwild' := ((adoptedBy_drain_iff hr).mp hmoved).1
      obtain rfl := DeliveryTable.eq_of_key hr hw (hwild'.trans hwild.symm) hevent
      have hcarried : j.delivery.CarriedExactly label r := by
        obtain ⟨b, hb, hblabel, hbposition, hblive⟩ := htaken
        exact ⟨b, hb, hblabel, .inr ⟨hbposition, hblive⟩⟩
      unfold DeliveryTable.adoptedRow at hrecipient
      rw [if_pos hmoved, if_pos hcarried] at hrecipient
      have heq : r.recipient = .label label := hrecipient
      rw [hwild] at heq
      cases heq
    · rw [DeliveryTable.adoptedRow_of_not hmoved] at hrecipient
      exact hnone r hr hrecipient hevent
  · intro hfree r hr hunread
    rcases hunread.1 with hlabel | hwild
    · exact ⟨r, mem_drain_of_label h hr hlabel, hlabel, rfl⟩
    · by_cases hcarried : j.delivery.CarriedExactly label r
      · -- The wildcard is withdrawn: some row of the label is of its event.
        by_contra hnone
        refine hfree ⟨r, hr, ⟨hwild, hunread⟩, ?_, fun b hb hblabel hbevent => ?_⟩
        · obtain ⟨b, hb, hblabel, hbevent | ⟨hbposition, hblive⟩⟩ := hcarried
          · exact absurd ⟨b, mem_drain_of_label h hb hblabel, hblabel, hbevent⟩ hnone
          · exact ⟨b, hb, hblabel, hbposition, hblive⟩
        · exact hnone ⟨b, mem_drain_of_label h hb hblabel, hblabel, hbevent⟩
      · have hmoved := (adoptedBy_drain_iff hr).mpr ⟨hwild, hunread⟩
        have hr' := Table.apply_mem hrows hr
        unfold DeliveryTable.adoptedRow at hr'
        rw [if_pos hmoved, if_neg hcarried] at hr'
        exact ⟨_, hr', rfl, rfl⟩

theorem drain_drained_iff :
    j.Drained j' label ↔ ¬ j.PositionTaken label := by
  rw [← drain_addressed_iff h]
  refine ⟨Journal.Drained.addressed, fun haddressed => ⟨?_, haddressed, ?_, ?_, ?_⟩⟩
  · intro wakingOnly streamIds limit rows hrows
    unfold Journal.pendingDeliveryEvents at hrows
    split at hrows
    · cases hrows
    cases hrows
    rw [List.filter_eq_nil_iff.mpr, List.take_nil]
    intro r' hr' hpending
    simp only [decide_eq_true_eq] at hpending
    obtain ⟨hto, hprojected, hlive, hbeyond⟩ := hpending.1.1
    obtain ⟨r, hr, hadopted⟩ := Table.exists_of_mem hr' (drain_rows h)
    have hposition : r'.position = r.position := by
      rw [← hadopted]
      exact DeliveryTable.position_adoptedRow
    have hstream : r'.streamId = r.streamId := congrArg Prod.fst hposition
    have hseq : r'.streamSeq = r.streamSeq := congrArg Prod.snd hposition
    rw [hstream, hseq] at hbeyond
    obtain ⟨hmono, hend⟩ := drain_position h
    have hunread : j.Unread label r := by
      by_cases hmoved : AdoptedBy (j.position label) (j.cursorTargets label none).rows r
      · exact ((adoptedBy_drain_iff hr).mp hmoved).2
      · rw [DeliveryTable.adoptedRow_of_not hmoved] at hadopted
        subst hadopted
        exact ⟨hto, hprojected, hlive, Nat.lt_of_le_of_lt (hmono _) hbeyond⟩
    exact absurd hbeyond (Nat.not_lt.mpr (hend r hr hunread))
  · intro r hr hunread hwild r' hr' hrowid
    rintro ⟨hwild', hlive'⟩
    obtain ⟨b, hb, rfl⟩ := Table.exists_of_mem hr' (drain_rows h)
    rw [DeliveryTable.rowid_adoptedRow] at hrowid
    obtain rfl := DeliveryTable.eq_of_rowid hb hr hrowid
    have hmoved := (adoptedBy_drain_iff hr).mpr ⟨hwild, hunread⟩
    unfold DeliveryTable.adoptedRow at hwild' hlive'
    rw [if_pos hmoved] at hwild' hlive'
    split at hlive'
    · exact DeliveryEvent.not_live_withdraw now _ hlive'
    · rename_i hcarried
      rw [if_neg hcarried] at hwild'
      cases hwild'
  · intro other hother r hrecipient
    refine ⟨fun hr' => ?_, fun hr => mem_drain_of_label h hr hrecipient⟩
    obtain ⟨b, hb, rfl⟩ := Table.exists_of_mem hr' (drain_rows h)
    by_cases hmoved : AdoptedBy (j.position label) (j.cursorTargets label none).rows b
    · have hwild := ((adoptedBy_drain_iff hb).mp hmoved).1
      unfold DeliveryTable.adoptedRow at hrecipient
      rw [if_pos hmoved] at hrecipient
      split at hrecipient
      · have heq : b.recipient = .label other := hrecipient
        rw [hwild] at heq
        cases heq
      · have heq : Recipient.label label = .label other := hrecipient
        exact absurd (Recipient.label.inj heq).symm hother
    · rwa [DeliveryTable.adoptedRow_of_not hmoved]
  · intro other hother stream
    rcases Journal.position_of_write h other stream with ⟨heq, -⟩ | hsame
    · exact absurd heq hother
    · exact hsame

end

end Write

/-- A write for a label with a cursor row commits: the adoption is never refused, and the
row keeps its generation. -/
theorem Journal.writeCursorPositions_commits {j : Journal}
    {cursor : ControllerCursor} (hcursor : j.cursors.get? label = some cursor) (version : ℕ)
    (advances : Dict ℕ) (actor : String) (now : Timestamp) :
    ∃ v j', j.writeCursorPositions label cursor.registryGeneration version advances actor now =
      .ok (v, j') := by
  obtain ⟨t', n, hall, -⟩ := @DeliveryTable.adoptAll_rows label (j.position label) now _
    advances.pairwise j.delivery
  obtain ⟨hmem, hlabel⟩ := KeyedTable.get?_eq_some.mp hcursor
  have hkept : KeyedTable.get? (if n ≠ 0 then
      { j with delivery := t' }.invalidateDeliveryCursorSnapshots .wildcard now (some label)
      else j.cursors) label = some cursor := by
    refine KeyedTable.get?_eq_some.mpr ⟨?_, hlabel⟩
    split
    · have hnot : ¬ invalidates .wildcard (some label) cursor.label :=
        fun h => h.2 (congrArg some hlabel.symm)
      exact Table.mem_update.mpr ⟨cursor, hmem, if_neg hnot⟩
    · exact hmem
  unfold Journal.writeCursorPositions
  simp only [hall, hkept, ne_eq, not_true_eq_false, if_false]
  exact ⟨_, _, rfl⟩

theorem Journal.setCursor_none_commits (j : Journal) (label : Label) (actor : String)
    (now : Timestamp) :
    ∃ generation version v j', j.setCursor label none actor now = .ok (v, j') ∧
      (j.ensureCursor label now).writeCursorPositions label generation version
        ((j.ensureCursor label now).cursorTargets label none) actor now = .ok (v, j') := by
  have hcursor : ∃ cursor, (j.ensureCursor label now).cursors.get? label = some cursor := by
    unfold Journal.ensureCursor
    rw [KeyedTable.get?_upsert, if_pos rfl]
    exact ⟨_, rfl⟩
  obtain ⟨cursor, hcursor⟩ := hcursor
  obtain ⟨v, j', hwrite⟩ := Journal.writeCursorPositions_commits hcursor cursor.cursorVersion
    ((j.ensureCursor label now).cursorTargets label none) actor now
  refine ⟨cursor.registryGeneration, cursor.cursorVersion, v, j', ?_, hwrite⟩
  unfold Journal.setCursor
  simp only [Option.map_none, reduceCtorEq, if_false, hcursor]
  exact hwrite

theorem Journal.drained_ensureCursor_iff {j j' : Journal} {now : Timestamp} :
    (j.ensureCursor label now).Drained j' label ↔ j.Drained j' label :=
  ⟨fun ⟨h₁, h₂, h₃, h₄, h₅⟩ => ⟨h₁, h₂, h₃, h₄, h₅⟩,
    fun ⟨h₁, h₂, h₃, h₄, h₅⟩ => ⟨h₁, h₂, h₃, h₄, h₅⟩⟩

/-- **A drain.**  On every journal and for every label a drain commits, so that no
constraint of any table refuses it, and it does what it promises exactly when no wildcard
the label has pending meets a live row of the label for another event at its position,
while the label has no row for the wildcard's own event. -/
theorem setCursor_drained_iff (j : Journal) (label : Label) (actor : String)
    (now : Timestamp) :
    ∃ v j', j.setCursor label none actor now = .ok (v, j') ∧
      (j.Drained j' label ↔ ¬ j.PositionTaken label) := by
  obtain ⟨_, _, v, j', hset, hwrite⟩ := j.setCursor_none_commits label actor now
  exact ⟨v, j', hset, Journal.drained_ensureCursor_iff.symm.trans (drain_drained_iff hwrite)⟩

/-- A label and the wildcard each get their first `attention` row, both numbered 1.  The
drain withdraws the wildcard's, and its event has no row of the label. -/
theorem setCursor_drain_leaves_event :
    let j := Machine.run Journal.step Journal.fresh
      [.claimOrRenewLease ⟨"ctl", ⟨some 7, some "s7", none⟩, some "n1", false, none, "u1",
          "i1", "t0", "t0", "t9"⟩,
        .recordDeliveryEvent ⟨.label "ctl", ⟨"node", "e1"⟩, "s", 1, "/c", "note", .waking,
          "t0"⟩ [] false "t0",
        .markDeliveryProjected (.label "ctl") ⟨"node", "e1"⟩ "t1",
        .expireStaleLeases [⟨"ctl", 1, "n1", "t0", "i2"⟩] "t2",
        .recordSystemAttention "hold" "unknown" "hold" "d1" "d1" "t3"]
    ∃ v j', j.setCursor "ctl" none "ctl" "t4" = .ok (v, j') ∧ ¬ j.Drained j' "ctl" := by
  intro j
  obtain ⟨_, _, v, j', hset, hwrite⟩ := j.setCursor_none_commits "ctl" "ctl" "t4"
  have htaken : (j.ensureCursor "ctl" "t4").PositionTaken "ctl" := by decide +kernel
  refine ⟨v, j', hset, fun hdrained => ?_⟩
  exact (drain_drained_iff hwrite).mp (Journal.drained_ensureCursor_iff.mpr hdrained) htaken

end GoalFlight
