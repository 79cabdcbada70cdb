import GoalFlight.Journal.Operation
import GoalFlight.Library.Join
import Mathlib.Data.String.Basic

/-!
# What an advance consumes

A controller peeks, other parties write, and the controller advances its cursors to the largest
positions it was shown, under the tokens of the peek.  A token that still holds says that the rows
in range are those of the peek, all of them projected (`rows_of_token`), but not that the peek
*showed* them: a live row of the label and a live wildcard may share one position, so the `LIMIT`
can cut between two rows of the position the cursor is moved to.
`advanceCursor_consumesShown_iff` says that this is the only way.
-/

namespace GoalFlight

open Relational

variable {limit : ℕ} {completeAddressedStreams wakingOnly : Bool} {label : Label} {j : Journal}
  {p : String × ℕ} {r : DeliveryEvent}

/-! ### Reading a token back -/

/-- What a row contributes to a token. -/
def snapshotKey (r : DeliveryEvent) : ℕ × Bool := (r.rowid, decide r.Projected)

theorem toList_snapshotField (r : DeliveryEvent) :
    (snapshotField r).toList =
      (toString r.rowid).toList ++ ':' :: (if r.Projected then "1" else "0").toList := by
  unfold snapshotField
  rw [String.toList_append, String.toList_append, List.append_assoc]
  rfl

theorem snapshotField_injective {a b : DeliveryEvent}
    (h : snapshotField a = snapshotField b) : snapshotKey a = snapshotKey b := by
  have hlist := congrArg String.toList h
  rw [toList_snapshotField, toList_snapshotField] at hlist
  obtain ⟨hid, hflag⟩ := Joined.append_cons_injective
    (Joined.notMem_toList_repr (by decide) _) (Joined.notMem_toList_repr (by decide) _) hlist
  have hrowid : a.rowid = b.rowid := Nat.repr_injective (String.toList_inj.mp hid)
  have hprojected : a.Projected ↔ b.Projected := by
    by_cases ha : a.Projected <;> by_cases hb : b.Projected
    · exact iff_of_true ha hb
    · rw [if_pos ha, if_neg hb] at hflag
      simp at hflag
    · rw [if_neg ha, if_pos hb] at hflag
      simp at hflag
    · exact iff_of_false ha hb
  exact Prod.ext hrowid (decide_eq_decide.mpr hprojected)

theorem snapshotField_bar_free (r : DeliveryEvent) :
    snapshotField r ≠ "" ∧ '|' ∉ (snapshotField r).toList := by
  constructor
  · intro hempty
    have hlist := toList_snapshotField r
    rw [hempty] at hlist
    simp at hlist
  · rw [toList_snapshotField]
    intro hmem
    rcases List.mem_append.mp hmem with hid | hflag
    · exact Joined.notMem_toList_repr (by decide) _ hid
    · split at hflag <;> simp at hflag

/-- **Tokens.**  Equal tokens list the same rows with the same visibility. -/
theorem snapshotMaterial_injective {xs ys : List DeliveryEvent}
    (h : snapshotMaterial xs = snapshotMaterial ys) :
    xs.map snapshotKey = ys.map snapshotKey := by
  have hfields : xs.map snapshotField = ys.map snapshotField := by
    refine Joined.intercalate_injective (c := '|') ?_ ?_ h
    · intro s hs
      obtain ⟨r, -, rfl⟩ := List.mem_map.mp hs
      exact snapshotField_bar_free r
    · intro s hs
      obtain ⟨r, -, rfl⟩ := List.mem_map.mp hs
      exact snapshotField_bar_free r
  induction xs generalizing ys with
  | nil =>
    cases ys with
    | nil => rfl
    | cons y ys => cases hfields
  | cons x xs ih =>
    cases ys with
    | nil => cases hfields
    | cons y ys =>
      obtain ⟨hfirst, hrest⟩ := List.cons.inj hfields
      rw [List.map_cons, List.map_cons, snapshotField_injective hfirst,
        ih (congrArg (fun l => "|".intercalate l) hrest) hrest]

/-! ### The positions a peek reaches to -/

theorem streamMaxima_append (rows : List DeliveryEvent) (r : DeliveryEvent) :
    streamMaxima (rows ++ [r]) =
      KeyedTable.upsert (streamMaxima rows) (r.streamId, r.streamSeq)
        (fun p => (p.1, max p.2 r.streamSeq)) (fun _ => rfl) := by
  unfold streamMaxima
  rw [List.foldl_append]
  rfl

/-- What the maxima hold for a stream: nothing when no row is of it, else the position of
a row of it that no row of it exceeds. -/
theorem streamMaxima_get? (rows : List DeliveryEvent) (stream : String) :
    (∀ p, KeyedTable.get? (streamMaxima rows) stream = some p →
      (∃ b ∈ rows, b.position = p) ∧ ∀ a ∈ rows, a.streamId = stream → a.streamSeq ≤ p.2) ∧
    (KeyedTable.get? (streamMaxima rows) stream = none → ∀ a ∈ rows, a.streamId ≠ stream) := by
  induction rows using List.reverseRecOn with
  | nil =>
    refine ⟨fun p hp => ?_, nofun⟩
    exact absurd (KeyedTable.get?_eq_some.mp hp).1 (Table.notMem_empty _)
  | append_singleton rows r ih =>
    obtain ⟨ihsome, ihnone⟩ := ih
    rw [streamMaxima_append, KeyedTable.get?_upsert]
    by_cases hstream : stream = r.streamId
    · subst hstream
      rw [if_pos rfl]
      refine ⟨fun p hp => ?_, fun h => absurd h (by simp)⟩
      cases hget : KeyedTable.get? (streamMaxima rows) r.streamId with
      | none =>
        rw [hget] at hp
        cases hp
        refine ⟨⟨r, by simp, rfl⟩, fun a ha has => ?_⟩
        rcases List.mem_append.mp ha with ha | ha
        · exact absurd has (ihnone hget a ha)
        · rw [List.mem_singleton.mp ha]
          exact le_refl r.streamSeq
      | some q =>
        rw [hget] at hp
        cases hp
        obtain ⟨⟨b, hb, rfl⟩, hbound⟩ := ihsome q hget
        have hkey : b.streamId = r.streamId := (KeyedTable.get?_eq_some.mp hget).2
        constructor
        · rcases le_total b.streamSeq r.streamSeq with hle | hle
          · exact ⟨r, by simp, Prod.ext hkey.symm (max_eq_right hle).symm⟩
          · exact ⟨b, by simp [hb], Prod.ext rfl (max_eq_left hle).symm⟩
        · intro a ha has
          rcases List.mem_append.mp ha with ha | ha
          · exact le_max_of_le_left (hbound a ha has)
          · rw [List.mem_singleton.mp ha]
            exact le_max_right _ _
    · rw [if_neg hstream]
      constructor
      · intro p hp
        obtain ⟨⟨b, hb, hbp⟩, hbound⟩ := ihsome p hp
        refine ⟨⟨b, List.mem_append_left _ hb, hbp⟩, fun a ha has => ?_⟩
        rcases List.mem_append.mp ha with ha | ha
        · exact hbound a ha has
        · rw [List.mem_singleton.mp ha] at has
          exact absurd has.symm hstream
      · intro hp a ha
        rcases List.mem_append.mp ha with ha | ha
        · exact ihnone hp a ha
        · rw [List.mem_singleton.mp ha]
          exact Ne.symm hstream

theorem mem_streamMaxima {rows : List DeliveryEvent} (hp : p ∈ streamMaxima rows) :
    (∃ b ∈ rows, b.position = p) ∧ ∀ a ∈ rows, a.streamId = p.1 → a.streamSeq ≤ p.2 :=
  (streamMaxima_get? rows p.1).1 p (KeyedTable.get?_eq_some.mpr ⟨hp, rfl⟩)

theorem exists_mem_streamMaxima {rows : List DeliveryEvent} {a : DeliveryEvent}
    (ha : a ∈ rows) : ∃ p ∈ streamMaxima rows, p.1 = a.streamId ∧ a.streamSeq ≤ p.2 := by
  cases hget : KeyedTable.get? (streamMaxima rows) a.streamId with
  | none => exact absurd rfl ((streamMaxima_get? rows a.streamId).2 hget a ha)
  | some p =>
    obtain ⟨hp, hkey⟩ := KeyedTable.get?_eq_some.mp hget
    exact ⟨p, hp, hkey, ((streamMaxima_get? rows a.streamId).1 p hget).2 a ha rfl⟩

/-! ### The pending query -/

instance : Std.Total StreamOrder where
  total a b := by
    unfold StreamOrder
    rcases lt_trichotomy a.streamId b.streamId with h | h | h
    · exact .inl (.inl h)
    · rcases lt_trichotomy a.streamSeq b.streamSeq with h' | h' | h'
      · exact .inl (.inr ⟨h, .inl h'⟩)
      · rcases le_total a.rowid b.rowid with h'' | h''
        · exact .inl (.inr ⟨h, .inr ⟨h', h''⟩⟩)
        · exact .inr (.inr ⟨h.symm, .inr ⟨h'.symm, h''⟩⟩)
      · exact .inr (.inr ⟨h.symm, .inl h'⟩)
    · exact .inr (.inl h)

instance : IsTrans DeliveryEvent StreamOrder where
  trans a b c := by
    rintro (hab | ⟨hab, hab'⟩) (hbc | ⟨hbc, hbc'⟩)
    · exact .inl (lt_trans hab hbc)
    · exact .inl (hbc ▸ hab)
    · exact .inl (hab ▸ hbc)
    · refine .inr ⟨hab.trans hbc, ?_⟩
      rcases hab' with h | ⟨h, hid⟩ <;> rcases hbc' with h' | ⟨h', hid'⟩
      · exact .inl (lt_trans h h')
      · exact .inl (h' ▸ h)
      · exact .inl (h ▸ h')
      · exact .inr ⟨h.trans h', hid.trans hid'⟩

theorem mem_cursorPending {streamIds : List String} :
    r ∈ j.cursorPending label wakingOnly streamIds ↔
      r ∈ j.delivery ∧ j.Pending label wakingOnly r ∧
        (streamIds = [] ∨ r.streamId ∈ streamIds) := by
  unfold Journal.cursorPending
  rw [List.mem_insertionSort, List.mem_filter, decide_eq_true_eq]
  rfl

theorem cursorPending_nodup (j : Journal) (label : Label) (wakingOnly : Bool)
    (streamIds : List String) : (j.cursorPending label wakingOnly streamIds).Nodup := by
  unfold Journal.cursorPending
  rw [(List.perm_insertionSort StreamOrder _).nodup_iff]
  refine List.Nodup.filter _ (j.delivery.pairwise.imp fun hab heq => ?_)
  have hlt := hab.rowid
  rw [heq] at hlt
  exact Nat.lt_irrefl _ hlt

theorem peekQuery_rows (j : Journal) (label : Label) (wakingOnly : Bool) (limit : ℕ)
    (completeAddressedStreams : Bool) :
    ∃ streamIds, (j.peekQuery label wakingOnly limit completeAddressedStreams).1 =
      j.cursorPending label wakingOnly streamIds := by
  unfold Journal.peekQuery
  simp only
  split
  · exact ⟨_, rfl⟩
  · exact ⟨_, rfl⟩

theorem pending_of_mem_peekQuery
    (hr : r ∈ (j.peekQuery label wakingOnly limit completeAddressedStreams).1) :
    r ∈ j.delivery ∧ j.Pending label wakingOnly r := by
  obtain ⟨streamIds, hrows⟩ :=
    peekQuery_rows j label wakingOnly limit completeAddressedStreams
  rw [hrows, mem_cursorPending] at hr
  exact ⟨hr.1, hr.2.1⟩

/-- The `LIMIT` of the last pending query cuts between two rows of one position. -/
def Journal.CutsPosition (j : Journal) (label : Label) (wakingOnly : Bool) (limit : ℕ)
    (completeAddressedStreams : Bool) : Prop :=
  let query := j.peekQuery label wakingOnly limit completeAddressedStreams
  ∃ a ∈ query.1.take query.2, ∃ b ∈ query.1.drop query.2, a.position = b.position

instance (j : Journal) (label : Label) (wakingOnly : Bool) (limit : ℕ)
    (completeAddressedStreams : Bool) :
    Decidable (j.CutsPosition label wakingOnly limit completeAddressedStreams) := by
  unfold Journal.CutsPosition
  infer_instance

/-- **What a peek leaves out.**  A pending row at or below the largest position shown of
its stream is an item, unless the `LIMIT` cut it off from an item of its own position. -/
theorem mem_peekItems_or_cut (hr : r ∈ j.delivery) (hpending : j.Pending label wakingOnly r)
    (hp : p ∈ streamMaxima (j.peekItems label wakingOnly limit completeAddressedStreams))
    (hstream : r.streamId = p.1) (hseq : r.streamSeq ≤ p.2) :
    r ∈ j.peekItems label wakingOnly limit completeAddressedStreams ∨
      j.CutsPosition label wakingOnly limit completeAddressedStreams := by
  obtain ⟨⟨b, hb, rfl⟩, -⟩ := mem_streamMaxima hp
  unfold Journal.peekItems Journal.CutsPosition at *
  obtain ⟨streamIds, hrows⟩ :=
    peekQuery_rows j label wakingOnly limit completeAddressedStreams
  generalize j.peekQuery label wakingOnly limit completeAddressedStreams = query at *
  simp only at hb ⊢
  -- The query takes whole streams, so it has `r` where it has `b`.
  have hmem : r ∈ query.1 := by
    have hb' := List.mem_of_mem_take hb
    rw [hrows, mem_cursorPending] at hb' ⊢
    rw [hstream]
    exact ⟨hr, hpending, hb'.2.2⟩
  have hsorted : (query.1.take query.2 ++ query.1.drop query.2).Pairwise StreamOrder := by
    rw [List.take_append_drop, hrows]
    exact List.pairwise_insertionSort StreamOrder _
  rw [← List.take_append_drop query.2 query.1] at hmem
  rcases List.mem_append.mp hmem with htake | hdrop
  · exact .inl htake
  · refine .inr ⟨b, hb, r, hdrop, ?_⟩
    rcases (List.pairwise_append.mp hsorted).2.2 b hb r hdrop with hlt | ⟨-, hlt | ⟨heq, -⟩⟩
    · rw [hstream] at hlt
      exact absurd hlt (lt_irrefl _)
    · exact absurd hlt (not_lt_of_ge hseq)
    · exact Prod.ext hstream.symm heq

theorem notMem_peekItems_of_cut {a b : DeliveryEvent}
    (ha : a ∈ j.peekItems label wakingOnly limit completeAddressedStreams)
    (hb : b ∈ (j.peekQuery label wakingOnly limit completeAddressedStreams).1.drop
      (j.peekQuery label wakingOnly limit completeAddressedStreams).2) :
    a.rowid ≠ b.rowid := by
  intro hid
  obtain ⟨streamIds, hrows⟩ :=
    peekQuery_rows j label wakingOnly limit completeAddressedStreams
  have ha' := pending_of_mem_peekQuery (List.mem_of_mem_take ha)
  have hb' := pending_of_mem_peekQuery (List.mem_of_mem_drop hb)
  obtain rfl := DeliveryTable.eq_of_rowid ha'.1 hb'.1 hid
  have hnodup := cursorPending_nodup j label wakingOnly streamIds
  rw [← hrows, ← List.take_append_drop
    (j.peekQuery label wakingOnly limit completeAddressedStreams).2 (j.peekQuery _ _ _ _).1]
    at hnodup
  exact (List.nodup_append.mp hnodup).2.2 a ha a hb rfl

/-! ### What a token that still holds says -/

theorem mem_snapshotRows {stream : String} {position : ℕ} :
    r ∈ j.snapshotRows label stream position wakingOnly ↔
      r ∈ j.delivery ∧ j.InSnapshotRange label stream position wakingOnly r := by
  unfold Journal.snapshotRows
  rw [List.mem_filter, decide_eq_true_eq]
  rfl

/-- **A token that still holds.**  The rows in range now are the rows that were in range at
the peek, as later transactions have left them; all were projected then. -/
theorem rows_of_token {k : Journal} (hevolves : j.delivery.Evolves k.delivery)
    {stream : String} {position : ℕ}
    (htoken : snapshotMaterial (j.snapshotRows label stream position wakingOnly) =
      snapshotMaterial (k.snapshotRows label stream position false))
    (hprojected : ∀ r ∈ k.snapshotRows label stream position false, r.Projected) :
    (∀ r ∈ k.snapshotRows label stream position false,
      ∃ a ∈ j.snapshotRows label stream position wakingOnly, a.Projected ∧ a.Becomes r) ∧
    ∀ a ∈ j.snapshotRows label stream position wakingOnly,
      ∃ r ∈ k.snapshotRows label stream position false, a.Becomes r := by
  have hkeys := snapshotMaterial_injective htoken
  -- Two rows with one key are one row, before and after.
  have hsame : ∀ a ∈ j.snapshotRows label stream position wakingOnly,
      ∀ r ∈ k.snapshotRows label stream position false, snapshotKey a = snapshotKey r →
        a.Projected ∧ a.Becomes r := by
    intro a ha r hr hkey
    obtain ⟨hid, hflag⟩ := Prod.ext_iff.mp hkey
    obtain ⟨r', hr', hbecomes⟩ := hevolves.kept a (mem_snapshotRows.mp ha).1
    have heq : r' = r :=
      DeliveryTable.eq_of_rowid hr' (mem_snapshotRows.mp hr).1 (hbecomes.rowid.trans hid)
    subst heq
    exact ⟨(decide_eq_decide.mp hflag).mpr (hprojected r' hr), hbecomes⟩
  constructor
  · intro r hr
    have hmem : snapshotKey r ∈ (j.snapshotRows label stream position wakingOnly).map
        snapshotKey := by
      rw [hkeys]
      exact List.mem_map_of_mem hr
    obtain ⟨a, ha, hkey⟩ := List.mem_map.mp hmem
    exact ⟨a, ha, hsame a ha r hr hkey⟩
  · intro a ha
    have hmem : snapshotKey a ∈ (k.snapshotRows label stream position false).map
        snapshotKey := by
      rw [← hkeys]
      exact List.mem_map_of_mem ha
    obtain ⟨r, hr, hkey⟩ := List.mem_map.mp hmem
    exact ⟨r, hr, (hsame a ha r hr hkey.symm).2⟩

theorem advanceRefusal_eq_none {snapshots : Dict String}
    (h : j.advanceRefusal label snapshots p = none) :
    (∀ r ∈ j.snapshotRows label p.1 p.2 false, r.Projected) ∧
      (snapshots.get? p.1).map Prod.snd =
        some (snapshotMaterial (j.snapshotRows label p.1 p.2 false)) := by
  unfold Journal.advanceRefusal Journal.cursorStreamSnapshot at h
  simp only at h
  split at h
  · cases h
  split at h
  · cases h
  split at h
  · cases h
  · rename_i hunseen
    rw [not_or, not_not] at hunseen
    refine ⟨fun r hr => ?_, hunseen.2⟩
    by_contra hnot
    exact hunseen.1 (List.any_eq_true.mpr ⟨r, hr, decide_eq_true (not_not_intro hnot)⟩)

theorem peekSnapshots_get? {items : List DeliveryEvent} (hp : p ∈ streamMaxima items) :
    (j.peekSnapshots label wakingOnly items).get? p.1 =
      some (p.1, snapshotMaterial (j.snapshotRows label p.1 p.2 wakingOnly)) := by
  refine KeyedTable.get?_eq_some.mpr ⟨?_, rfl⟩
  exact List.mem_map.mpr ⟨p, hp, rfl⟩

/-! ### The advance -/

/-- Every live row of the label that a move to `positions` passes is one of the items. -/
def Journal.ConsumesOnly (j : Journal) (label : Label) (positions : Dict ℕ)
    (items : List DeliveryEvent) : Prop :=
  ∀ r ∈ j.delivery.rows, r.AddressedTo label → r.Live → ∀ p ∈ positions.rows,
    r.streamId = p.1 → j.position label p.1 < r.streamSeq → r.streamSeq ≤ p.2 →
      ∃ a ∈ items, a.rowid = r.rowid ∧ a.event = r.event

instance (j : Journal) (label : Label) (positions : Dict ℕ) (items : List DeliveryEvent) :
    Decidable (j.ConsumesOnly label positions items) := by
  unfold Journal.ConsumesOnly
  infer_instance

theorem cursorPeek_eq_ok {nonce : Option String} {peek : CursorPeek}
    (h : j.cursorPeek label nonce wakingOnly limit completeAddressedStreams = .ok peek) :
    peek.items = j.peekItems label wakingOnly limit completeAddressedStreams ∧
      peek.streamSnapshots = j.peekSnapshots label wakingOnly peek.items := by
  unfold Journal.cursorPeek at h
  split at h
  · cases h
  split at h
  · cases h
  split at h
  · cases h
  split at h
  · cases h
  split at h
  · cases h
  · cases h
    exact ⟨rfl, rfl⟩

theorem cursorGate_snapshotRows {j' : Journal} {nonce : Option String} {allowNoLease : Bool}
    {now : Timestamp} {c : ControllerCursor}
    (h : j.cursorGate label nonce allowNoLease now = .ok (c, j')) (stream : String)
    (position : ℕ) (wakingOnly : Bool) :
    j'.snapshotRows label stream position wakingOnly =
      j.snapshotRows label stream position wakingOnly := by
  rcases cursorGate_cases h with rfl | rfl
  · rfl
  · rfl

/-- **An advance consumes what was shown.**  When an advance to the positions of a peek,
under its tokens, commits after any transactions, every row it passes was an item, exactly
when the peek's `LIMIT` did not cut between two rows of one position. -/
theorem advanceCursor_consumesShown_iff {j : Journal} {label : Label} {nonce : Option String}
    {wakingOnly : Bool} {limit : ℕ} {completeAddressedStreams : Bool} {peek : CursorPeek}
    (hpeek : j.cursorPeek label nonce wakingOnly limit completeAddressedStreams = .ok peek)
    {ops : List JournalOp} {nonce' : Option String} {version : ℕ} {actor : String}
    {allowNoLease : Bool} {now : Timestamp} {v : CursorWrite} {k : Journal}
    (hadvance : (Machine.run Journal.step j ops).advanceCursor label nonce' version
      peek.streamSnapshots (streamMaxima peek.items) actor allowNoLease now = .ok (v, k)) :
    (Machine.run Journal.step j ops).ConsumesOnly label (streamMaxima peek.items) peek.items ↔
      ¬ j.CutsPosition label wakingOnly limit completeAddressedStreams := by
  have hevolves := Journal.run_evolves j ops
  generalize Machine.run Journal.step j ops = m at *
  obtain ⟨hitems, hsnapshots⟩ := cursorPeek_eq_ok hpeek
  obtain ⟨cursor, i, hgate, hchecks, -⟩ := advanceCursor_eq_ok hadvance
  -- The checks of the advance, read over the journal before the gate.
  have htokens : ∀ p ∈ streamMaxima peek.items,
      (∀ r ∈ m.snapshotRows label p.1 p.2 false,
        ∃ a ∈ j.snapshotRows label p.1 p.2 wakingOnly, a.Projected ∧ a.Becomes r) ∧
      ∀ a ∈ j.snapshotRows label p.1 p.2 wakingOnly,
        ∃ r ∈ m.snapshotRows label p.1 p.2 false, a.Becomes r := by
    intro p hp
    obtain ⟨hprojected, htoken⟩ := advanceRefusal_eq_none (hchecks p hp)
    rw [hsnapshots, peekSnapshots_get? hp, cursorGate_snapshotRows hgate] at htoken
    rw [cursorGate_snapshotRows hgate] at hprojected
    exact rows_of_token hevolves (Option.some.inj htoken) hprojected
  rw [hitems] at htokens ⊢
  constructor
  · -- A row that was cut off is in range, and no item.
    rintro hshown ⟨a, ha, b, hb, hpos⟩
    obtain ⟨hbmem, ⟨haddr, hprojected, hlive, hbeyond⟩, hwaking⟩ :=
      pending_of_mem_peekQuery (List.mem_of_mem_drop hb)
    obtain ⟨p, hp, hkey, hle⟩ := exists_mem_streamMaxima ha
    have hrange : b ∈ j.snapshotRows label p.1 p.2 wakingOnly := by
      have hstream : a.streamId = b.streamId := congrArg Prod.fst hpos
      have hseq : a.streamSeq = b.streamSeq := congrArg Prod.snd hpos
      rw [mem_snapshotRows, hkey, hstream]
      exact ⟨hbmem, haddr, rfl, hlive, hbeyond, hseq ▸ hle, hwaking⟩
    obtain ⟨r, hr, hbecomes⟩ := (htokens p hp).2 b hrange
    obtain ⟨hrmem, hraddr, hrstream, hrlive, hrbeyond, hrle, -⟩ := mem_snapshotRows.mp hr
    obtain ⟨c, hc, hid, -⟩ := hshown r hrmem hraddr hrlive p hp hrstream hrbeyond hrle
    exact notMem_peekItems_of_cut hc hb (hid.trans hbecomes.rowid)
  · intro hcut r hr haddr hlive p hp hstream hbeyond hle
    have hrange : r ∈ m.snapshotRows label p.1 p.2 false :=
      mem_snapshotRows.mpr ⟨hr, haddr, hstream, hlive, hbeyond, hle, by simp⟩
    obtain ⟨a, ha, hprojected, hbecomes⟩ := (htokens p hp).1 r hrange
    obtain ⟨hamem, haaddr, hastream, halive, habeyond, hale, hwaking⟩ := mem_snapshotRows.mp ha
    have hpending : j.Pending label wakingOnly a :=
      ⟨⟨haaddr, hprojected, halive, hastream ▸ habeyond⟩, hwaking⟩
    rcases mem_peekItems_or_cut hamem hpending hp hastream hale with hitem | hcut'
    · exact ⟨a, hitem, hbecomes.rowid.symm, hbecomes.event.symm⟩
    · exact absurd hcut' hcut

theorem mem_toOption {ε α : Type} {x : Except ε α} {a : α} :
    a ∈ x.toOption ↔ x = .ok a := by
  cases x with
  | error e => simp [Except.toOption]
  | ok b => simp [Except.toOption, eq_comm]

/-- One unread row is shown; a second arrives before the advance and is left alone. -/
theorem advanceCursor_consumesShown_later :
    let claim : LeaseClaim := ⟨"ctl", ⟨some 1, some "s", none⟩, some "n1", false, none, "f",
      "i", "t0", "t0", "t9"⟩
    let post (id : String) (seq : ℕ) : List JournalOp :=
      [.recordDeliveryEvent ⟨.label "ctl", ⟨"node", id⟩, "d", seq, "/c", "result", .waking,
        "t1"⟩ [] false "t1", .markDeliveryProjected (.label "ctl") ⟨"node", id⟩ "t2"]
    let j := Machine.run Journal.step Journal.fresh (.claimOrRenewLease claim :: post "e1" 1)
    let k := Machine.run Journal.step j (post "e2" 2)
    ∃ peek, j.cursorPeek "ctl" (some "n1") false 10 false = .ok peek ∧
      k.ConsumesOnly "ctl" (streamMaxima peek.items) peek.items := by
  intro claim post j k
  have hruns : ∃ peek ∈ (j.cursorPeek "ctl" (some "n1") false 10 false).toOption,
      ∃ r ∈ (k.advanceCursor "ctl" (some "n1") peek.cursorVersion peek.streamSnapshots
        (streamMaxima peek.items) "ctl" false "t3").toOption,
      ¬ j.CutsPosition "ctl" false 10 false := by
    decide +kernel
  obtain ⟨peek, hpeek, r, hadvance, hcut⟩ := hruns
  exact ⟨peek, mem_toOption.mp hpeek, (advanceCursor_consumesShown_iff (mem_toOption.mp hpeek)
    (mem_toOption.mp hadvance)).mpr hcut⟩

/-- A reachable state in which a controller consumes what it was not shown.  The attention
event of a retired controller has been re-homed to `attention/1`, where the attention
event of `b` stands.  A peek with limit 1 shows the first; the advance passes both. -/
theorem advanceCursor_consumes_unshown :
    let claim (label nonce : String) : JournalOp := .claimOrRenewLease ⟨label,
      ⟨some 1, some "s", none⟩, some nonce, false, none, "f", "i", "t0", "t0", "t9"⟩
    let attempt : JournalOp := .prepareAttempt ⟨"d", none, none, none, true, none, none, none,
      none, "a1", "tok", "t0", "t9"⟩
    let orphan (label nonce item : String) : JournalOp :=
      .expireStaleLeases [⟨label, 1, nonce, "t0", item⟩] "t1"
    let j := Machine.run Journal.step Journal.fresh
      [attempt, claim "a" "n1", orphan "a" "n1" "i1", claim "a" "n2",
        .releaseLease "a" "n2" "released" "t2", claim "b" "n1", orphan "b" "n1" "i2",
        claim "b" "n2"]
    ∃ peek ∈ (j.cursorPeek "b" (some "n2") false 1 false).toOption,
      (j.advanceCursor "b" (some "n2") peek.cursorVersion peek.streamSnapshots
        (streamMaxima peek.items) "b" false "t3").isOk = true ∧
      ¬ j.ConsumesOnly "b" (streamMaxima peek.items) peek.items := by
  decide +kernel

/-! ### What is shown -/

/-- A delivery that was recorded, and not withdrawn, or one that is recorded later. -/
def Journal.Foresees (j : Journal) (r : DeliveryEvent) : Prop :=
  (∃ a ∈ j.delivery, a.Live ∧ a.Becomes r) ∨ ∀ a ∈ j.delivery, a.rowid < r.rowid

theorem foresees_of_pending {ops : List JournalOp}
    (hr : r ∈ (Machine.run Journal.step j ops).delivery) (hlive : r.Live) : j.Foresees r := by
  rcases (Journal.run_evolves j ops).grown r hr with ⟨a, ha, hbecomes⟩ | hnew
  · exact .inl ⟨a, ha, not_not.mp fun hgone => hbecomes.withdrawn hgone hlive, hbecomes⟩
  · exact .inr hnew

/-- **What is shown is what was recorded.**  Whatever transactions follow, a withdrawn delivery is
not shown again to any label, and one that is shown has the event and the position that it was
recorded with. -/
theorem shown_was_recorded (j : Journal) (ops : List JournalOp) (label : Label)
    (wakingOnly : Bool) (limit : ℕ) :
    let j' := Machine.run Journal.step j ops
    (∀ nonce complete peek, j'.cursorPeek label nonce wakingOnly limit complete = .ok peek →
      ∀ r ∈ peek.items, j.Foresees r) ∧
    ∀ streamIds rows, j'.pendingDeliveryEvents label wakingOnly streamIds limit = .ok rows →
      ∀ r ∈ rows, j.Foresees r := by
  refine ⟨fun nonce complete peek hpeek r hr => ?_, fun streamIds rows hrows r hr => ?_⟩
  · rw [(cursorPeek_eq_ok hpeek).1] at hr
    obtain ⟨hmem, hpending⟩ := pending_of_mem_peekQuery (List.mem_of_mem_take hr)
    exact foresees_of_pending hmem hpending.1.2.2.1
  · unfold Journal.pendingDeliveryEvents at hrows
    split at hrows
    · cases hrows
    · cases hrows
      obtain ⟨hmem, hpending⟩ := List.mem_filter.mp (List.mem_of_mem_take hr)
      exact foresees_of_pending hmem (of_decide_eq_true hpending).1.1.2.2.1

end GoalFlight
