import GoalFlight.Journal.Lease

/-!
# Cursors

A label's *stream cursor* says how far the label has seen one stream.  `cursor_peek`
shows the pending mail with a snapshot token for each stream it mentions;
`advance_cursor` moves the cursors to positions whose tokens still hold; `set_cursor`
writes the owner's positions without any gate.  Both writers *adopt* the wildcard rows
they move past, so that another label is not shown them again.

A token is the SHA-256 of a text that lists the rows in range.  The digest is taken
here to be that text, which is to say that no two texts collide.
-/

namespace GoalFlight

open Relational

variable {n version : ℕ} {allowNoLease : Bool} {label : Label} {actor : String}
  {j j' : Journal} {now : Timestamp} {t t' : DeliveryTable} {nonce : Option String}
  {advances : List (String × ℕ)}

variable {currentPosition generation position : ℕ} {stream : String} {current : String → ℕ}

/-- A Python `dict` with text keys, in insertion order. -/
abbrev Dict (β : Type) := KeyedTable (Prod.fst : String × β → String)

/-! ### Snapshot tokens -/

/-- A live row addressed to the label on the stream, beyond the label's cursor and at
or below the requested position. -/
def Journal.InSnapshotRange (j : Journal) (label : Label) (stream : String)
    (requestedPosition : ℕ) (wakingOnly : Bool) (r : DeliveryEvent) : Prop :=
  r.AddressedTo label ∧ r.streamId = stream ∧ r.Live ∧
    j.position label stream < r.streamSeq ∧ r.streamSeq ≤ requestedPosition ∧
    (wakingOnly → r.wakeClass = .waking)

instance (j : Journal) (label : Label) (stream : String) (requestedPosition : ℕ)
    (wakingOnly : Bool) (r : DeliveryEvent) :
    Decidable (j.InSnapshotRange label stream requestedPosition wakingOnly r) := by
  unfold Journal.InSnapshotRange
  infer_instance

/-- The rows of a snapshot range.  The table is in row-id order. -/
def Journal.snapshotRows (j : Journal) (label : Label) (stream : String)
    (requestedPosition : ℕ) (wakingOnly : Bool) : List DeliveryEvent :=
  j.delivery.rows.filter fun r =>
    j.InSnapshotRange label stream requestedPosition wakingOnly r

/-- One row in the hashed text: its id and whether it is projected. -/
def snapshotField (r : DeliveryEvent) : String :=
  toString r.rowid ++ ":" ++ (if r.Projected then "1" else "0")

/-- The hashed text. -/
def snapshotMaterial (rows : List DeliveryEvent) : String :=
  "|".intercalate (rows.map snapshotField)

/-- `_cursor_stream_snapshot`: the token, and whether a row in range is unprojected. -/
def Journal.cursorStreamSnapshot (j : Journal) (label : Label) (stream : String)
    (requestedPosition : ℕ) (wakingOnly : Bool) : String × Bool :=
  let rows := j.snapshotRows label stream requestedPosition wakingOnly
  (snapshotMaterial rows, rows.any fun r => ¬ r.Projected)

/-! ### Peeking -/

/-- `ORDER BY e.stream_id, e.stream_seq, e.rowid`. -/
def StreamOrder (a b : DeliveryEvent) : Prop :=
  a.streamId < b.streamId ∨ (a.streamId = b.streamId ∧
    (a.streamSeq < b.streamSeq ∨ (a.streamSeq = b.streamSeq ∧ a.rowid ≤ b.rowid)))

instance : DecidableRel StreamOrder := fun a b => by
  unfold StreamOrder
  infer_instance

/-- A row the pending query selects for a label. -/
def Journal.Pending (j : Journal) (label : Label) (wakingOnly : Bool) (r : DeliveryEvent) :
    Prop :=
  j.Unread label r ∧ (wakingOnly → r.wakeClass = .waking)

instance (j : Journal) (label : Label) (wakingOnly : Bool) (r : DeliveryEvent) :
    Decidable (j.Pending label wakingOnly r) := by
  unfold Journal.Pending
  infer_instance

/-- The query of `_cursor_pending_sql`, without its `LIMIT`.  An empty stream set
selects every stream. -/
def Journal.cursorPending (j : Journal) (label : Label) (wakingOnly : Bool)
    (streamIds : List String) : List DeliveryEvent :=
  (j.delivery.rows.filter fun r =>
    j.Pending label wakingOnly r ∧ (streamIds = [] ∨ r.streamId ∈ streamIds)).insertionSort
    StreamOrder

/-- The largest sequence number of each stream the rows mention. -/
def streamMaxima (rows : List DeliveryEvent) : Dict ℕ :=
  rows.foldl
    (fun positions r => KeyedTable.upsert positions (r.streamId, r.streamSeq)
      (fun p => (p.1, max p.2 r.streamSeq)) (fun _ => rfl))
    .empty

/-- `CursorPeek`.  The position a stream's token reaches to is the largest sequence
number among the stream's items. -/
structure CursorPeek where
  registryGeneration : ℕ
  cursorVersion : ℕ
  streamSnapshots : Dict String
  items : List DeliveryEvent

/-- The last pending query of a peek, as its rows and its `LIMIT`: every pending row or,
to complete the addressed streams, the pending rows of the streams the first query
mentions. -/
def Journal.peekQuery (j : Journal) (label : Label) (wakingOnly : Bool) (limit : ℕ)
    (completeAddressedStreams : Bool) : List DeliveryEvent × ℕ :=
  let rows := (j.cursorPending label wakingOnly []).take limit
  if completeAddressedStreams ∧ rows ≠ [] then
    (j.cursorPending label wakingOnly (rows.map DeliveryEvent.streamId).dedup, 10000)
  else (j.cursorPending label wakingOnly [], limit)

/-- The items a peek returns. -/
def Journal.peekItems (j : Journal) (label : Label) (wakingOnly : Bool) (limit : ℕ)
    (completeAddressedStreams : Bool) : List DeliveryEvent :=
  let query := j.peekQuery label wakingOnly limit completeAddressedStreams
  query.1.take query.2

/-- The tokens of the streams a set of items mentions. -/
def Journal.peekSnapshots (j : Journal) (label : Label) (wakingOnly : Bool)
    (items : List DeliveryEvent) : Dict String :=
  ⟨(streamMaxima items).rows.map fun p =>
      (p.1, (j.cursorStreamSnapshot label p.1 p.2 wakingOnly).1),
    by
      rw [List.pairwise_map]
      exact (streamMaxima items).pairwise⟩

/-- `cursor_peek`. -/
def Journal.cursorPeek (j : Journal) (label : Label) (nonce : Option String)
    (wakingOnly : Bool) (limit : ℕ) (completeAddressedStreams : Bool) :
    Except Abort CursorPeek :=
  if ¬ (1 ≤ limit ∧ limit ≤ 10000) then
    .error (.valueError "cursor peek limit must be between 1 and 10000")
  else
    match j.activeLease label with
    | none => .error (.casMismatch "listener lease generation or nonce is no longer active")
    | some lease =>
      if nonce.isSome ∧ nonce ≠ some lease.nonce then
        .error (.casMismatch "listener lease generation or nonce is no longer active")
      else
        match j.cursors.get? label with
        | none => .error (.journalIntegrity
            "active lease is missing its generation-matched cursor")
        | some cursor =>
          if cursor.registryGeneration ≠ lease.generation then
            .error (.journalIntegrity
              "active lease is missing its generation-matched cursor")
          else
            let items := j.peekItems label wakingOnly limit completeAddressedStreams
            .ok ⟨cursor.registryGeneration, cursor.cursorVersion,
              j.peekSnapshots label wakingOnly items, items⟩

/-- `pending_delivery_events`: the pending rows of some streams, in row-id order. -/
def Journal.pendingDeliveryEvents (j : Journal) (label : Label) (wakingOnly : Bool)
    (streamIds : List String) (limit : ℕ) : Except Abort (List DeliveryEvent) :=
  if ¬ (1 ≤ limit ∧ limit ≤ 10000) then
    .error (.valueError "pending delivery limit must be between 1 and 10000")
  else
    .ok ((j.delivery.rows.filter fun r =>
      j.Pending label wakingOnly r ∧ (streamIds = [] ∨ r.streamId ∈ streamIds)).take limit)

/-! ### Writing positions -/

/-- A wildcard row the label has moved past. -/
def Adoptable (stream : String) (currentPosition position : ℕ) (r : DeliveryEvent) : Prop :=
  r.recipient = .wildcard ∧ r.streamId = stream ∧ currentPosition < r.streamSeq ∧
    r.streamSeq ≤ position ∧ r.Projected ∧ r.Live

instance (stream : String) (currentPosition position : ℕ) (r : DeliveryEvent) :
    Decidable (Adoptable stream currentPosition position r) := by
  unfold Adoptable
  infer_instance

/-- The label has an exact row for the wildcard's event, or a live one at its
position, so the wildcard cannot be renamed to the label. -/
def DeliveryTable.CarriedExactly (t : DeliveryTable) (label : Label) (w : DeliveryEvent) :
    Prop :=
  ∃ r ∈ t.rows, r.recipient = .label label ∧
    (r.event = w.event ∨ (r.position = w.position ∧ r.Live))

instance (t : DeliveryTable) (label : Label) (w : DeliveryEvent) :
    Decidable (t.CarriedExactly label w) := by
  unfold DeliveryTable.CarriedExactly
  infer_instance

/-- The wildcards moved past on one stream: those the label already carries are
withdrawn, the others become the label's.  The value is the table and the number of
rows changed. -/
def DeliveryTable.adopt (t : DeliveryTable) (label : Label) (stream : String)
    (currentPosition position : ℕ) (now : Timestamp) : Option (DeliveryTable × ℕ) :=
  let duplicate := fun r => Adoptable stream currentPosition position r ∧
    t.CarriedExactly label r
  let withdrawn := t.withdrawWhere duplicate now
  (withdrawn.relabelWhere? (Adoptable stream currentPosition position) (.label label)).map
    fun adopted => (adopted, (t.rows.countP fun r => duplicate r) +
      withdrawn.rows.countP fun r => Adoptable stream currentPosition position r)

/-- The adoption loop over the streams written. -/
def DeliveryTable.adoptAll (t : DeliveryTable) (label : Label) (current : String → ℕ)
    (now : Timestamp) : List (String × ℕ) → Option (DeliveryTable × ℕ)
  | [] => some (t, 0)
  | (stream, position) :: rest =>
    match t.adopt label stream (current stream) position now with
    | none => none
    | some (t, changed) =>
      (t.adoptAll label current now rest).map fun (t, more) => (t, changed + more)

/-- The value of a cursor write. -/
structure CursorWrite where
  label : Label
  registryGeneration : ℕ
  previousCursorVersion : ℕ
  cursorVersion : ℕ
  advances : List (String × ℕ)

variable {v : CursorWrite}

/-- The stream cursors after the positions are written. -/
def writeStreamCursors (t : KeyedTable StreamCursor.key) (label : Label) (now : Timestamp)
    (advances : List (String × ℕ)) : KeyedTable StreamCursor.key :=
  advances.foldl
    (fun t p => KeyedTable.upsert t ⟨label, p.1, p.2, now⟩
      (fun c => { c with position := p.2, updatedAt := now }) (fun _ => rfl))
    t

/-- The rewind counters after the positions are written: a stream whose position goes
back counts one more rewind. -/
def writeStreamRewinds (t : KeyedTable StreamRewind.key) (label : Label)
    (current : String → ℕ) (advances : List (String × ℕ)) : KeyedTable StreamRewind.key :=
  (advances.filter fun p => p.2 < current p.1).foldl
    (fun t p => KeyedTable.upsert t ⟨label, p.1, 1⟩
      (fun c => { c with rewindVersion := c.rewindVersion + 1 }) (fun _ => rfl))
    t

/-- `_write_cursor_positions`, after the caller's checks.  `actor` is an identity token,
so the column `advanced_by` is never left empty. -/
def Journal.writeCursorPositions (j : Journal) (label : Label) (generation : ℕ)
    (currentCursorVersion : ℕ) (advances : Dict ℕ) (actor : String) (now : Timestamp) :
    Tx CursorWrite :=
  let current := j.position label
  match j.delivery.adoptAll label current now advances.rows with
  | none => .error (.constraint "delivery_events")
  | some (delivery, adopted) =>
    let j := { j with delivery := delivery }
    let j := { j with
      cursors :=
        if adopted ≠ 0 then j.invalidateDeliveryCursorSnapshots .wildcard now (some label)
        else j.cursors
      streamRewinds := writeStreamRewinds j.streamRewinds label current advances.rows
      streamCursors := writeStreamCursors j.streamCursors label now advances.rows }
    match j.cursors.get? label with
    | none => .error (.casMismatch "cursor CAS lost: registry generation changed")
    | some cursor =>
      if cursor.registryGeneration ≠ generation then
        .error (.casMismatch "cursor CAS lost: registry generation changed")
      else
        .ok (⟨label, generation, currentCursorVersion, currentCursorVersion + 1,
            advances.rows⟩,
          { j with
            cursors := j.cursors.update
              (fun c =>
                if c.label = label then
                  { c with
                    cursorVersion := c.cursorVersion + 1
                    updatedAt := now
                    backlogPending := j.labelHasUnreadDelivery label
                    advancedAt := some now
                    advancedBy := some actor }
                else c)
              (by intro a b h; split <;> split <;> exact h) })

/-- `INSERT INTO controller_cursors … ON CONFLICT DO NOTHING`: a label without a cursor
row gets one, for its latest generation. -/
def Journal.ensureCursor (j : Journal) (label : Label) (now : Timestamp) : Journal :=
  { j with
    cursors := j.cursors.upsert
      ⟨label, (j.leases.maxGeneration? label).getD 1, 0, false, now, none, none⟩
      id (fun _ => rfl) }

/-- The owner's positions or, for a drain, the end of every stream the label can
read. -/
def Journal.cursorTargets (j : Journal) (label : Label) : Option (Dict ℕ) → Dict ℕ
  | some positions => positions
  | none => streamMaxima (j.delivery.rows.filter fun r => j.Unread label r)

/-- `set_cursor`. -/
def Journal.setCursor (j : Journal) (label : Label) (positions : Option (Dict ℕ))
    (actor : String) (now : Timestamp) : Tx CursorWrite :=
  if (positions.map Table.rows) = some [] then
    .error (.valueError "cursor positions are empty or invalid")
  else
    let j := j.ensureCursor label now
    match j.cursors.get? label with
    | none => .error (.casMismatch "cursor CAS lost: registry generation changed")
    | some cursor =>
      j.writeCursorPositions label cursor.registryGeneration cursor.cursorVersion
        (j.cursorTargets label positions) actor now

/-! ### Advancing under a snapshot -/

/-- The cursor row an `advance_cursor` may write, with the journal in which the row
exists: the `ACTIVE` lease authorizes its holder, and the operator opt-in is refused
while there is one. -/
def Journal.cursorGate (j : Journal) (label : Label) (nonce : Option String)
    (allowNoLease : Bool) (now : Timestamp) : Tx ControllerCursor :=
  match j.activeLease label, allowNoLease with
  | some _, true =>
    .error (.casMismatch "cursor CAS lost: an active lease exists for this label")
  | none, true =>
    let j := j.ensureCursor label now
    match j.cursors.get? label with
    | none => .error (.casMismatch "cursor CAS lost: registry generation changed")
    | some cursor => .ok (cursor, j)
  | none, false => .error (.casMismatch "cursor CAS lost: no active lease exists")
  | some lease, false =>
    if nonce ≠ some lease.nonce then
      .error (.casMismatch "cursor CAS lost: lease generation changed")
    else
      match j.cursors.get? label with
      | none => .error (.casMismatch "cursor CAS lost: registry generation changed")
      | some cursor =>
        if cursor.registryGeneration ≠ lease.generation then
          .error (.casMismatch "cursor CAS lost: registry generation changed")
        else .ok (cursor, j)

/-- The server knows a readable row of the label at the position. -/
def Journal.KnownPosition (j : Journal) (label : Label) (stream : String) (position : ℕ) :
    Prop :=
  ∃ r ∈ j.delivery.rows, r.AddressedTo label ∧ r.streamId = stream ∧
    r.streamSeq = position ∧ r.Projected ∧ r.Live

instance (j : Journal) (label : Label) (stream : String) (position : ℕ) :
    Decidable (j.KnownPosition label stream position) := by
  unfold Journal.KnownPosition
  infer_instance

/-- Why one stream's advance is refused, if it is. -/
def Journal.advanceRefusal (j : Journal) (label : Label) (snapshots : Dict String)
    (advance : String × ℕ) : Option Abort :=
  let (stream, position) := advance
  let (snapshot, hasUnprojected) := j.cursorStreamSnapshot label stream position false
  let at_ := stream ++ "=" ++ toString position
  if position ≤ j.position label stream then
    some (.casMismatch "cursor CAS lost: position is already advanced")
  else if ¬ j.KnownPosition label stream position then
    some (.casMismatch ("cursor CAS lost: server has no pending position " ++ at_))
  else if hasUnprojected ∨ (snapshots.get? stream).map Prod.snd ≠ some snapshot then
    some (.casMismatch ("cursor CAS lost: unseen position exists at or below " ++ at_))
  else none

/-- `advance_cursor`. -/
def Journal.advanceCursor (j : Journal) (label : Label) (nonce : Option String)
    (expectedCursorVersion : ℕ) (expectedStreamSnapshots : Dict String)
    (advances : Dict ℕ) (actor : String) (allowNoLease : Bool) (now : Timestamp) :
    Tx CursorWrite :=
  if nonce = none ∧ ¬ allowNoLease then
    .error (.valueError "cursor lease nonce must be a bounded identity token")
  else if advances.rows = [] then
    .error (.valueError "cursor advances are empty or invalid")
  else if ∃ p ∈ advances.rows, p.2 < 1 then
    .error (.valueError "cursor position is invalid")
  else if ¬ ((∀ p ∈ advances.rows, p.1 ∈ expectedStreamSnapshots.rows.map Prod.fst) ∧
      ∀ p ∈ expectedStreamSnapshots.rows, p.1 ∈ advances.rows.map Prod.fst) then
    .error (.valueError "cursor advances and stream snapshots must name the same streams")
  else
    (j.cursorGate label nonce allowNoLease now).andThen fun cursor j =>
      if cursor.cursorVersion < expectedCursorVersion then
        .error (.casMismatch "cursor CAS lost: cursor version is from the future")
      else
        match advances.rows.findSome? (j.advanceRefusal label expectedStreamSnapshots) with
        | some abort => .error abort
        | none =>
          j.writeCursorPositions label cursor.registryGeneration cursor.cursorVersion
            advances actor now

/-! ### The tables cursor transactions write -/

/-- Only delivery rows and cursor tables differ: delivery rows evolve, and cursors keep
their generations. -/
structure CursorsWrite (j j' : Journal) : Prop where
  delivery : j.delivery.Dims j'.delivery
  cursors : SameGenerations j.cursors j'.cursors
  rest : ∃ delivery cursors streamCursors streamRewinds, j' = { j with
    delivery := delivery
    cursors := cursors
    streamCursors := streamCursors
    streamRewinds := streamRewinds }

namespace CursorsWrite

theorem refl (j : Journal) : CursorsWrite j j := ⟨.refl _, .refl _, _, _, _, _, rfl⟩

theorem trans {j₁ j₂ j₃ : Journal} (h₁ : CursorsWrite j₁ j₂) (h₂ : CursorsWrite j₂ j₃) :
    CursorsWrite j₁ j₃ := by
  refine ⟨h₁.delivery.trans h₂.delivery, h₁.cursors.trans h₂.cursors, ?_⟩
  obtain ⟨_, _, _, _, rfl⟩ := h₁.rest
  obtain ⟨_, _, _, _, rfl⟩ := h₂.rest
  exact ⟨_, _, _, _, rfl⟩

end CursorsWrite

theorem DeliveryTable.adopt_eq_some
    (h : t.adopt label stream currentPosition position now = some (t', n)) :
    ∃ i, i = t.withdrawWhere (fun r => Adoptable stream currentPosition position r ∧
        t.CarriedExactly label r) now ∧
      i.relabelWhere? (Adoptable stream currentPosition position) (.label label) =
        some t' := by
  unfold DeliveryTable.adopt at h
  obtain ⟨adopted, hadopted, heq⟩ := Option.map_eq_some_iff.mp h
  cases heq
  exact ⟨_, rfl, hadopted⟩

theorem DeliveryTable.adopt_dims
    (h : t.adopt label stream currentPosition position now = some (t', n)) :
    t.Dims t' := by
  obtain ⟨i, rfl, hrelabel⟩ := DeliveryTable.adopt_eq_some h
  exact .trans (.withdrawWhere _ _ _)
    (.relabelWhere? hrelabel fun r hr => .inr hr.2.2.2.2.1)

theorem DeliveryTable.adoptAll_cons {p : String × ℕ} {rest : List (String × ℕ)}
    (h : t.adoptAll label current now (p :: rest) = some (t', n)) :
    ∃ i k m, t.adopt label p.1 (current p.1) p.2 now = some (i, k) ∧
      i.adoptAll label current now rest = some (t', m) := by
  unfold DeliveryTable.adoptAll at h
  split at h
  · cases h
  · obtain ⟨⟨u, m⟩, hrest, heq⟩ := Option.map_eq_some_iff.mp h
    cases heq
    exact ⟨_, _, m, ‹_›, hrest⟩

theorem DeliveryTable.adoptAll_dims :
    ∀ {t t' : DeliveryTable} {n : ℕ},
      t.adoptAll label current now advances = some (t', n) → t.Dims t' := by
  induction advances with
  | nil =>
    intro t t' n h
    cases h
    exact .refl _
  | cons p rest ih =>
    intro t t' n h
    obtain ⟨i, k, m, hfirst, hrest⟩ := DeliveryTable.adoptAll_cons h
    exact (DeliveryTable.adopt_dims hfirst).trans (ih hrest)

section

variable {advances : Dict ℕ}
  (h : j.writeCursorPositions label generation version advances actor now = .ok (v, j'))
include h

theorem Journal.writeCursorPositions_eq_ok :
    ∃ delivery n cursors,
      j.delivery.adoptAll label (j.position label) now advances.rows = some (delivery, n) ∧
      SameGenerations j.cursors cursors ∧
      j' = { j with
        delivery := delivery
        cursors := cursors
        streamRewinds :=
          writeStreamRewinds j.streamRewinds label (j.position label) advances.rows
        streamCursors := writeStreamCursors j.streamCursors label now advances.rows } := by
  unfold Journal.writeCursorPositions at h
  simp only at h
  split at h
  · cases h
  · rename_i delivery adopted hadopt
    split at h
    · cases h
    · split at h
      · cases h
      · cases h
        have hother : SameGenerations j.cursors (if adopted ≠ 0 then
            { j with delivery := delivery }.invalidateDeliveryCursorSnapshots .wildcard now
              (some label)
            else j.cursors) := by
          split
          · exact .of_invalidate rfl rfl
          · exact .refl _
        refine ⟨delivery, adopted, _, hadopt, hother.trans fun c hc => ?_, rfl⟩
        refine ⟨_, Table.apply_mem rfl hc, ?_⟩
        split <;> exact ⟨rfl, rfl⟩

theorem writeCursorPositions_write :
    CursorsWrite j j' := by
  obtain ⟨delivery, n, cursors, hadopt, hgen, rfl⟩ := Journal.writeCursorPositions_eq_ok h
  exact ⟨DeliveryTable.adoptAll_dims hadopt, hgen, _, _, _, _, rfl⟩

end

theorem ensureCursor_write (j : Journal) (label : Label) (now : Timestamp) :
    CursorsWrite j (j.ensureCursor label now) := by
  refine ⟨.refl _, fun c hc => ⟨c, ?_, rfl, rfl⟩, _, _, _, _, rfl⟩
  have hget : j.cursors.get? c.label = some c := KeyedTable.get?_eq_some.mpr ⟨hc, rfl⟩
  refine (KeyedTable.get?_eq_some (k := c.label)).mp ?_ |>.1
  unfold Journal.ensureCursor
  rw [KeyedTable.get?_upsert]
  split
  · rw [hget]
    rfl
  · exact hget

theorem setCursor_eq_ok {positions : Option (Dict ℕ)}
    (h : j.setCursor label positions actor now = .ok (v, j')) :
    ∃ cursor : ControllerCursor, ∃ i : Journal, i = j.ensureCursor label now ∧
      i.writeCursorPositions label cursor.registryGeneration cursor.cursorVersion
        (i.cursorTargets label positions) actor now = .ok (v, j') := by
  unfold Journal.setCursor at h
  split at h
  · cases h
  · simp only at h
    split at h
    · cases h
    · exact ⟨_, _, rfl, h⟩

theorem setCursor_write {positions : Option (Dict ℕ)}
    (h : j.setCursor label positions actor now = .ok (v, j')) : CursorsWrite j j' := by
  obtain ⟨cursor, i, rfl, hwrite⟩ := setCursor_eq_ok h
  exact (ensureCursor_write j label now).trans (writeCursorPositions_write hwrite)

theorem cursorGate_cases {c : ControllerCursor}
    (h : j.cursorGate label nonce allowNoLease now = .ok (c, j')) :
    j' = j ∨ j' = j.ensureCursor label now := by
  unfold Journal.cursorGate at h
  split at h
  · cases h
  · simp only at h
    split at h
    · cases h
    · cases h
      exact .inr rfl
  · cases h
  · split at h
    · cases h
    · split at h
      · cases h
      · split at h
        · cases h
        · cases h
          exact .inl rfl

theorem cursorGate_write {c : ControllerCursor}
    (h : j.cursorGate label nonce allowNoLease now = .ok (c, j')) : CursorsWrite j j' := by
  rcases cursorGate_cases h with rfl | rfl
  · exact .refl _
  · exact ensureCursor_write j label now

section

variable {snapshots : Dict String} {advances : Dict ℕ}
  (h : j.advanceCursor label nonce version snapshots advances actor allowNoLease now = .ok (v, j'))
include h

/-- What a committed `advance_cursor` went through: the gate, every stream's check, and
the write. -/
theorem advanceCursor_eq_ok :
    ∃ cursor i, j.cursorGate label nonce allowNoLease now = .ok (cursor, i) ∧
      (∀ p ∈ advances.rows, i.advanceRefusal label snapshots p = none) ∧
      i.writeCursorPositions label cursor.registryGeneration cursor.cursorVersion advances
        actor now = .ok (v, j') := by
  unfold Journal.advanceCursor at h
  split at h
  · cases h
  split at h
  · cases h
  split at h
  · cases h
  split at h
  · cases h
  obtain ⟨cursor, i, hgate, h⟩ := Tx.andThen_eq_ok.mp h
  split at h
  · cases h
  · split at h
    · cases h
    · rename_i hchecks
      exact ⟨cursor, i, hgate, by simpa using hchecks, h⟩

theorem advanceCursor_write : CursorsWrite j j' := by
  obtain ⟨cursor, i, hgate, -, hwrite⟩ := advanceCursor_eq_ok h
  exact (cursorGate_write hgate).trans (writeCursorPositions_write hwrite)

end

/-! ### Where the cursors are after a write -/

theorem writeStreamCursors_get?_of_ne {t : KeyedTable StreamCursor.key} {k : Label × String}
    (h : ∀ p ∈ advances, k ≠ (label, p.1)) :
    (writeStreamCursors t label now advances).get? k = t.get? k := by
  induction advances generalizing t with
  | nil => rfl
  | cons p rest ih =>
    have hrest := ih (t := KeyedTable.upsert t ⟨label, p.1, p.2, now⟩
      (fun c => { c with position := p.2, updatedAt := now }) (fun _ => rfl))
      fun q hq => h q (List.mem_cons_of_mem _ hq)
    have hfirst : k ≠ (label, p.1) := h p List.mem_cons_self
    rw [KeyedTable.get?_upsert, if_neg hfirst] at hrest
    exact hrest

theorem writeStreamCursors_get?_of_mem (label : Label) (now : Timestamp)
    (hdistinct : advances.Pairwise fun a b => a.1 ≠ b.1) {p : String × ℕ} (hp : p ∈ advances) :
    ∀ t : KeyedTable StreamCursor.key, ∃ c,
      (writeStreamCursors t label now advances).get? (label, p.1) = some c ∧
        c.position = p.2 := by
  induction advances with
  | nil => cases hp
  | cons q rest ih =>
    obtain ⟨hfirst, hrest⟩ := List.pairwise_cons.mp hdistinct
    intro t
    rcases List.mem_cons.mp hp with rfl | hp
    · -- The later writes name other streams.
      have hlater : ∀ q ∈ rest, (label, p.1) ≠ (label, q.1) := by
        intro q hq heq
        exact hfirst q hq (congrArg Prod.snd heq)
      have hget : (writeStreamCursors (KeyedTable.upsert t ⟨label, p.1, p.2, now⟩
          (fun c => { c with position := p.2, updatedAt := now }) (fun _ => rfl)) label now
          rest).get? (label, p.1) = _ := writeStreamCursors_get?_of_ne hlater
      rw [KeyedTable.get?_upsert, if_pos rfl] at hget
      refine ⟨_, hget, ?_⟩
      cases t.get? (StreamCursor.key ⟨label, p.1, p.2, now⟩) with
      | none => rfl
      | some c => rfl
    · exact ih hrest hp _

theorem Journal.position_of_write {advances : Dict ℕ}
    (h : j.writeCursorPositions label generation version advances actor now = .ok (v, j'))
    (l : Label) (stream : String) :
    (l = label ∧ (stream, j'.position l stream) ∈ advances) ∨
      j'.position l stream = j.position l stream := by
  obtain ⟨delivery, n, cursors, -, -, rfl⟩ := Journal.writeCursorPositions_eq_ok h
  by_cases hnamed : ∃ p ∈ advances.rows, (l, stream) = (label, p.1)
  · obtain ⟨p, hp, heq⟩ := hnamed
    obtain ⟨rfl, rfl⟩ := Prod.mk.injEq _ _ _ _ ▸ heq
    obtain ⟨c, hget, hposition⟩ := writeStreamCursors_get?_of_mem l now
      advances.pairwise hp j.streamCursors
    refine .inl ⟨rfl, ?_⟩
    unfold Journal.position
    rw [hget, Option.map_some, Option.getD_some, hposition]
    exact hp
  · refine .inr ?_
    unfold Journal.position
    rw [writeStreamCursors_get?_of_ne fun p hp heq => hnamed ⟨p, hp, heq⟩]

theorem DeliveryTable.mem_adopt
    (h : t.adopt label stream currentPosition position now = some (t', n)) {r : DeliveryEvent}
    (hr : r ∈ t) (hnot : ¬ Adoptable stream currentPosition position r) :
    r ∈ t' := by
  obtain ⟨i, rfl, hrelabel⟩ := DeliveryTable.adopt_eq_some h
  have hmem := Table.apply_mem (DeliveryTable.rows_withdrawWhere t (fun r =>
    Adoptable stream currentPosition position r ∧ t.CarriedExactly label r) now) hr
  rw [if_neg fun h => hnot h.1] at hmem
  have hmem' := Table.apply_mem (Table.update?_eq_some hrelabel) hmem
  rwa [if_neg hnot] at hmem'

theorem DeliveryTable.mem_adoptAll {r : DeliveryEvent}
    (hnot : ∀ p ∈ advances, ¬ Adoptable p.1 (current p.1) p.2 r) :
    ∀ {t t' : DeliveryTable} {n : ℕ},
      t.adoptAll label current now advances = some (t', n) → r ∈ t → r ∈ t' := by
  induction advances with
  | nil =>
    intro t t' n h hr
    cases h
    exact hr
  | cons p rest ih =>
    intro t t' n h hr
    obtain ⟨i, k, m, hfirst, hrest⟩ := DeliveryTable.adoptAll_cons h
    have hi := DeliveryTable.mem_adopt hfirst hr (hnot p List.mem_cons_self)
    exact ih (fun q hq => hnot q (List.mem_cons_of_mem _ hq)) hrest hi

end GoalFlight
