import GoalFlight.Wake.Forward

/-!
# Wake: only repeats are suppressed

A run over the lines of any children, with any cursors moved back, readable or not, and any write
that fails.  A row of mail that is left out was shown since the last time its stream was moved back,
where no two events that are shown have one place.
-/

namespace GoalFlight.Wake

open Json
open Watch (Line strip)
open GoalFlight.Tasks (strOf)

variable {line : Line}

/-! ### Lines that report events -/

/-- An event of the journal, for a recipient. -/
structure MailEvent where
  recipient : String
  uuid : String
  stream : String
  seq : ℕ
deriving DecidableEq

/-- A row, and the event that it reports, if any. -/
abbrev ReportedRow := Value × Option MailEvent

/-- A line of a child, with the event of each row; a row that tells a place tells that of its
event. -/
structure MailLine where
  text : Line
  events : List (Option MailEvent)
  length_events : events.length = (childMailRows text).length
  names : ∀ x ∈ (childMailRows text).zip events, ∀ e ∈ x.2, ∀ place ∈ envelopePlace x.1,
    place.stream = e.stream ∧ place.seq = e.seq

namespace MailLine

/-- The rows with their events. -/
def rows (l : MailLine) : List ReportedRow := (childMailRows l.text).zip l.events

theorem map_rows (l : MailLine) : l.rows.map Prod.fst = childMailRows l.text :=
  List.map_fst_zip (le_of_eq l.length_events.symm)

/-- The rows of what is written. -/
def shownRows (l : MailLine) (m : Memory) : Output → List ReportedRow
  | .line _ => l.rows
  | .report _ => (remainingRows Prod.fst m.delivered [] l.rows).1

end MailLine

/-! ### Runs -/

/-- The supervisor's memory, the journal's versions, the rows that were shown since their streams
were moved back, and whether a write has failed. -/
structure ForwardState where
  memory : Memory
  versions : String → ℕ
  shown : List ReportedRow
  ended : Bool

variable {s : ForwardState}

/-- The stream of a row: that of its event. -/
def shownStream (x : ReportedRow) : Value :=
  match x.2 with
  | some e => .str e.stream
  | none => rowStream x.1

namespace ForwardState

/-- A supervisor starts, over any journal. -/
def start (versions : String → ℕ) : ForwardState := ⟨.empty, versions, [], false⟩

/-- A cursor is moved back in a stream. -/
def rewind (s : ForwardState) (stream : String) : ForwardState :=
  { s with
    versions := Function.update s.versions stream (s.versions stream + 1)
    shown := s.shown.filter fun x => shownStream x ≠ .str stream }

/-- What becomes of a line. -/
def forward (s : ForwardState) (l : MailLine) (readable : Bool) :
    Memory × Option (Output × List (String × String)) :=
  forwardChildLine s.memory (if readable then some s.versions else none) l.text

/-- The rows that are written, with the write that may fail. -/
def writes (s : ForwardState) (l : MailLine) (readable : Bool) : List ReportedRow :=
  (s.forward l readable).2.elim [] fun output => l.shownRows (s.forward l readable).1 output.1

end ForwardState

/-- In terse mode a stream's own heartbeats and frontiers are not forwarded. -/
def takenAside (childKind : String) (line : Line) : Bool :=
  (ownStreamRecord childKind line "heartbeat").isSome ||
    (ownStreamRecord childKind line "frontier").isSome

/-- What can happen. -/
inductive ForwardAction
  | rewind (stream : String)
  /-- A line of a child; the versions can be read or not, `during` are streams that are moved back
  between the reading and the write, and the write succeeds or fails. -/
  | line (childKind : String) (line : MailLine) (readable : Bool) (during : List String)
    (written : Bool)

/-- One step. -/
def ForwardState.step (s : ForwardState) : ForwardAction → ForwardState
  | .rewind stream => s.rewind stream
  | .line childKind l readable during written =>
    if s.ended ∨ takenAside childKind l.text then s
    else
      let (m, output) := s.forward l readable
      let s' := during.foldl ForwardState.rewind { s with memory := m }
      match output with
      | none => s'
      | some (output, identities) =>
        if written then
          { s' with memory := s'.memory.remember identities, shown := l.shownRows m output ++ s'.shown }
        else { s' with ended := true }

/-! ### The property and the condition -/

/-- The rest of a report is unchanged: only items are left out. -/
def RestUnchanged (line : Line) (report : Mapping) : Prop :=
  ∃ record, parseChildRecord line = some record ∧
    (∀ key, key ≠ "items" → report.get? key = record.get? key) ∧
    (recordItems report).Sublist (recordItems record)

/-- **Nothing is lost** of a line: the event of a row is shown, or written now; so is an escalation,
under its own type; a health record is written; and of a report only rows are left out. -/
structure LineKept (s : ForwardState) (l : MailLine) (readable : Bool) : Prop where
  events : ∀ x ∈ l.rows, ∀ e ∈ x.2,
    ∃ y ∈ s.writes l readable ++ s.shown, y.2 = some e
  escalations : ∀ x ∈ l.rows, eventType x.1 ∈ escalationEventTypes →
    x ∈ s.writes l readable ∨
      ∃ y ∈ s.writes l readable ++ s.shown, envelopePlace y.1 = envelopePlace x.1
  health : ∀ x ∈ l.rows, eventType x.1 ∈ passthroughEventTypes → x ∈ s.writes l readable
  rest : ∀ report identities, (s.forward l readable).2 = some (.report report, identities) →
    RestUnchanged l.text report

/-- Nothing is lost in a step: a line that is taken aside has no mail. -/
def NothingLost (s : ForwardState) : ForwardAction → Prop
  | .rewind _ => True
  | .line childKind l readable _ _ =>
    s.ended = false →
      if takenAside childKind l.text then l.rows = [] else LineKept s l readable

/-- **The condition**: a row whose event has the stream, the position and, if it is an escalation,
the type of a row that was shown, or of one of its own line, reports the event of that row. -/
def OnePlaceOneEvent (s : ForwardState) : ForwardAction → Prop
  | .rewind _ => True
  | .line _ l _ _ _ =>
    ∀ x ∈ l.rows, ∀ e ∈ x.2, ∀ y ∈ l.rows ++ s.shown,
      (envelopePlace x.1).isSome = true → envelopePlace y.1 = envelopePlace x.1 → y.2 = some e

/-! ### What becomes of a line -/

theorem length_childMailRows_le (h : pendingReport? line = none) :
    (childMailRows line).length ≤ 1 := by
  unfold pendingReport? at h
  unfold childMailRows
  cases hparse : parseChildRecord line with
  | none =>
    simp only [List.length_map]
    cases headlineRow (strip line) <;> simp
  | some record =>
    rw [hparse, Option.filter_eq_none_iff] at h
    have hkind : recordGet record "kind" ≠ .str "pending-at-arm" := by
      simpa using h record rfl
    simp only
    split
    · split <;> simp
    · simp

theorem kind_of_childMailRows {record : Mapping} (hreport : pendingReport? line = none)
    (hparse : parseChildRecord line = some record) (hrows : childMailRows line ≠ []) :
    recordGet record "kind" = .str "event" := by
  unfold pendingReport? at hreport
  rw [hparse, Option.filter_eq_none_iff] at hreport
  have hkind : recordGet record "kind" ≠ .str "pending-at-arm" := by
    simpa using hreport record rfl
  by_contra hne
  apply hrows
  unfold childMailRows
  rw [hparse]
  simp only
  rw [if_neg hne, if_neg hkind]

theorem row_of_backlogLineIdentity (hreport : pendingReport? line = none)
    (hcapable : isBacklogCapableLine line = true)
    (hidentity : "envelope:".toList.isPrefixOf (backlogLineIdentity line).toList = true) :
    ∃ row, childMailRows line = [row] ∧ envelopeIdentity row = some (backlogLineIdentity line) := by
  obtain ⟨row, hrow⟩ : ∃ row, childMailRows line = [row] := by
    have hle := length_childMailRows_le hreport
    unfold isBacklogCapableLine at hcapable
    cases hrows : childMailRows line with
    | nil =>
      rw [hrows] at hcapable
      cases hcapable
    | cons row rest =>
      rw [hrows, List.length_cons] at hle
      exact ⟨row, by rw [List.length_eq_zero_iff.mp (by omega : rest.length = 0)]⟩
  refine ⟨row, hrow, ?_⟩
  cases hplace : envelopeIdentity row with
  | some identity =>
    unfold backlogLineIdentity
    simp only [hrow, hplace, Option.getD_some]
  | none =>
    -- the other forms begin with another word
    have hnot (lead rest : String) (hlead : "envelope:".toList.isPrefixOf
        (lead.toList ++ rest.toList) = false) (h : backlogLineIdentity line = lead ++ rest) :
        False := by
      rw [h, String.toList_append, hlead] at hidentity
      cases hidentity
    unfold backlogLineIdentity at hnot
    simp only [hrow, hplace, Option.getD_none] at hnot
    cases hparse : parseChildRecord line with
    | none =>
      rw [hparse] at hnot
      exact (hnot "line:" _ rfl rfl).elim
    | some record =>
      rw [hparse] at hnot
      have hkind := kind_of_childMailRows hreport hparse (by rw [hrow]; simp)
      have hevent : Tasks.strOrEmpty (recordGet record "kind") = "event" := by
        rw [hkind]
        rfl
      simp only [hevent] at hnot
      rw [if_neg (by decide)] at hnot
      split at hnot
      · split at hnot
        · exact (hnot ("snapshot:" ++ "event" ++ ":") _ rfl rfl).elim
        · exact (hnot ("event" ++ ":") _ rfl rfl).elim
      · exact (hnot ("event" ++ ":") _ rfl rfl).elim

/-- **What becomes of a line**: which memory decides; a row is written, or is recognised by that
memory, read just now, or by a row that is written; what is remembered are the rows written; and of
a report only items are left out. -/
structure Forwards (m : Memory) (rewinds : Option (String → ℕ)) (l : MailLine)
    (r : Memory × Option (Output × List (String × String))) : Prop where
  memory : r.1 = m ∨ ∃ versions, rewinds = some versions ∧ r.1 = m.takeRewinds versions
  kept : ∀ x ∈ l.rows, x ∈ r.2.elim [] (fun output => l.shownRows r.1 output.1) ∨
    (backlogCapableRow x.1 = true ∧ ∃ identity, envelopeIdentity x.1 = some identity ∧
      (((r.1.delivered identity).isSome = true ∧
          ∃ versions, rewinds = some versions ∧ r.1 = m.takeRewinds versions) ∨
        ∃ z ∈ r.2.elim [] (fun output => l.shownRows r.1 output.1),
          envelopeIdentity z.1 = some identity))
  identities : ∀ output identities, r.2 = some (output, identities) →
    ∀ p ∈ identities, ∃ z ∈ l.shownRows r.1 output,
      envelopeIdentity z.1 = some p.1 ∧ strOf (rowStream z.1) = p.2
  rest : ∀ report identities, r.2 = some (.report report, identities) → RestUnchanged l.text report

theorem childMailRows_of_pendingReport {record : Mapping}
    (h : pendingReport? line = some record) :
    parseChildRecord line = some record ∧ childMailRows line = recordItems record := by
  obtain ⟨hparse, hkind⟩ := Option.filter_eq_some_iff.mp h
  have hkind' : recordGet record "kind" = .str "pending-at-arm" := by simpa using hkind
  refine ⟨hparse, ?_⟩
  unfold childMailRows
  rw [hparse]
  simp only
  rw [if_neg (by rw [hkind']; decide), if_pos hkind']

theorem recordItems_set (record : Mapping) {items : List Value} (h : (Value.arr items).wellFormed) :
    recordItems (record.set "items" ⟨.arr items, h⟩) = items := by
  unfold recordItems recordGet
  rw [Mapping.field_val, Mapping.get?_set]
  rfl

theorem recordItems_reportOf (record : Mapping) (delivered : String → Option String) :
    recordItems (reportOf record delivered) =
      (remainingRows id delivered [] (recordItems record)).1 :=
  recordItems_set record _

/-- **The spec of `forward_child_line`.** -/
theorem forwards (m : Memory) (rewinds : Option (String → ℕ)) (l : MailLine) :
    Forwards m rewinds l (forwardChildLine m rewinds l.text) := by
  unfold forwardChildLine
  simp only
  split
  · exact {
      memory := .inl rfl
      kept := fun x hx => .inl hx
      identities := by
        rintro output identities h p hp
        cases h
        cases hp
      rest := by
        rintro report identities h
        cases h }
  · rename_i hread
    -- the memory that decides, and that it was read where there are rows
    generalize hmemory : (if (childMailRows l.text).isEmpty = true then m
      else (rewinds.map m.takeRewinds).getD m) = m'
    have hdecides : m' = m ∨ ∃ versions, rewinds = some versions ∧ m' = m.takeRewinds versions := by
      rw [← hmemory]
      split
      · exact .inl rfl
      · cases rewinds with
        | none => exact .inl rfl
        | some versions => exact .inr ⟨versions, rfl, rfl⟩
    have hrows (x : ReportedRow) (hx : x ∈ l.rows) :
        ∃ versions, rewinds = some versions ∧ m' = m.takeRewinds versions := by
      have hmem : x.1 ∈ childMailRows l.text := by
        rw [← l.map_rows]
        exact List.mem_map_of_mem hx
      have hnonempty : (childMailRows l.text).isEmpty = false := by
        rw [← Bool.not_eq_true, List.isEmpty_iff]
        intro hnil
        rw [hnil] at hmem
        cases hmem
      rw [← hmemory, hnonempty]
      rw [hnonempty] at hread
      cases rewinds with
      | none => exact absurd ⟨rfl, rfl⟩ hread
      | some versions => exact ⟨versions, rfl, rfl⟩
    split
    · rename_i record hreport
      obtain ⟨hparse, hitems⟩ := childMailRows_of_pendingReport hreport
      have hmap := map_remainingRows Prod.fst m'.delivered [] l.rows
      rw [l.map_rows] at hmap
      have hor := mem_remainingRows_or Prod.fst m'.delivered [] l.rows
      have hids := exists_of_mem_identities Prod.fst m'.delivered [] l.rows
      split
      · exact {
          memory := hdecides
          kept := by
            intro x hx
            rcases hor x hx with hremains | ⟨hcapable, identity, hidentity, hknown⟩
            · exact .inl hremains
            · refine .inr ⟨hcapable, identity, hidentity, ?_⟩
              rcases hknown with hdelivered | hbefore | hz
              · exact .inl ⟨hdelivered, hrows x hx⟩
              · cases hbefore
              · exact .inr hz
          identities := by
            rintro output identities h p hp
            cases h
            rw [← hmap.2] at hp
            exact (hids p hp).resolve_left List.not_mem_nil
          rest := by
            rintro report identities h
            cases h
            refine ⟨record, hparse, ?_, ?_⟩
            · intro key hkey
              exact Mapping.get?_set_of_ne record hkey _
            · rw [recordItems_reportOf]
              exact remainingRows_sublist id m'.delivered [] _ }
      · exact {
          memory := hdecides
          kept := fun x hx => .inl hx
          identities := by
            rintro output identities h p hp
            cases h
            rw [← hmap.2] at hp
            obtain ⟨z, hz, hz'⟩ := (hids p hp).resolve_left List.not_mem_nil
            exact ⟨z, (remainingRows_sublist Prod.fst m'.delivered [] l.rows).subset hz, hz'⟩
          rest := by
            rintro report identities h
            cases h }
    · rename_i hreport
      split
      · rename_i hidentity
        obtain ⟨row, hrow, hown⟩ := row_of_backlogLineIdentity hreport hidentity.1 hidentity.2
        have hone : ∀ x ∈ l.rows, x.1 = row := by
          intro x hx
          have hmem : x.1 ∈ childMailRows l.text := by
            rw [← l.map_rows]
            exact List.mem_map_of_mem hx
          rw [hrow] at hmem
          exact List.mem_singleton.mp hmem
        split
        · rename_i hdelivered
          exact {
            memory := hdecides
            kept := by
              intro x hx
              refine .inr ⟨?_, _, by rw [hone x hx]; exact hown, .inl ⟨hdelivered, hrows x hx⟩⟩
              have hcapable := hidentity.1
              unfold isBacklogCapableLine at hcapable
              simp only [hrow, Bool.and_eq_true, List.all_cons, List.all_nil, Bool.and_true]
                at hcapable
              rw [hone x hx]
              exact hcapable.2
            identities := by
              rintro output identities h
              cases h
            rest := by
              rintro report identities h
              cases h }
        · exact {
            memory := hdecides
            kept := fun x hx => .inl hx
            identities := by
              rintro output identities h p hp
              cases h
              rw [hrow] at hp
              obtain rfl := List.mem_singleton.mp hp
              have hmem : row ∈ l.rows.map Prod.fst := by
                rw [l.map_rows, hrow]
                exact List.mem_singleton_self row
              obtain ⟨z, hz, rfl⟩ := List.mem_map.mp hmem
              exact ⟨z, hz, hown, rfl⟩
            rest := by
              rintro report identities h
              cases h }
      · exact {
          memory := hdecides
          kept := fun x hx => .inl hx
          identities := by
            rintro output identities h p hp
            cases h
            cases hp
          rest := by
            rintro report identities h
            cases h }

theorem MailLine.rows_of_takenAside (l : MailLine) {childKind : String}
    (h : takenAside childKind l.text = true) : l.rows = [] := by
  have hnone : childMailRows l.text = [] := by
    unfold takenAside at h
    rw [Bool.or_eq_true, Option.isSome_iff_exists, Option.isSome_iff_exists] at h
    rcases h with ⟨record, hrecord⟩ | ⟨record, hrecord⟩
    · exact childMailRows_of_ownStreamRecord hrecord (by decide) (by decide)
    · exact childMailRows_of_ownStreamRecord hrecord (by decide) (by decide)
  rw [← List.map_eq_nil_iff (f := Prod.fst), l.map_rows, hnone]

/-! ### What is remembered was shown -/

/-- **The invariant**: the versions that were read are not ahead; what is remembered in a stream that
was not moved back since then was shown; and rows tell the streams of their events. -/
structure Remembered (s : ForwardState) : Prop where
  seen : ∀ stream, s.memory.seenRewinds stream ≤ s.versions stream
  shown : ∀ identity stream, s.memory.delivered identity = some stream →
    s.memory.seenRewinds stream = s.versions stream →
      ∃ y ∈ s.shown, envelopeIdentity y.1 = some identity ∧ strOf (rowStream y.1) = stream
  named : ∀ y ∈ s.shown, ∀ e ∈ y.2, ∀ place ∈ envelopePlace y.1, place.stream = e.stream

theorem remembered_start (versions : String → ℕ) : Remembered (.start versions) where
  seen stream := Nat.zero_le _
  shown identity stream h := by cases h
  named y hy := absurd hy List.not_mem_nil

theorem Remembered.shownStream_eq (h : Remembered s) {y : ReportedRow} (hy : y ∈ s.shown)
    {identity : String} (hidentity : envelopeIdentity y.1 = some identity) :
    shownStream y = .str (strOf (rowStream y.1)) := by
  obtain ⟨place, hplace, -⟩ := Option.map_eq_some_iff.mp hidentity
  have hrow := rowStream_of_envelopePlace hplace
  rw [hrow]
  unfold shownStream
  cases he : y.2 with
  | none => exact hrow
  | some e => exact congrArg Value.str (h.named y hy e he place hplace).symm

/-- **A cursor is moved back.** -/
theorem Remembered.rewind (h : Remembered s) (stream : String) :
    Remembered (s.rewind stream) where
  seen st := by
    refine (h.seen st).trans ?_
    show s.versions st ≤ Function.update s.versions stream (s.versions stream + 1) st
    rw [Function.update_apply]
    split
    · rename_i heq
      rw [heq]
      exact Nat.le_succ _
    · exact le_refl _
  shown identity st hdelivered hfresh := by
    have hversion : s.memory.seenRewinds st =
        Function.update s.versions stream (s.versions stream + 1) st := hfresh
    have hne : st ≠ stream := by
      rintro rfl
      rw [Function.update_self] at hversion
      have := h.seen st
      omega
    rw [Function.update_of_ne hne] at hversion
    obtain ⟨y, hy, hidentity, hstream⟩ := h.shown identity st hdelivered hversion
    refine ⟨y, List.mem_filter.mpr ⟨hy, ?_⟩, hidentity, hstream⟩
    rw [h.shownStream_eq hy hidentity, hstream, decide_eq_true_eq]
    exact fun heq => hne (Value.str.inj heq)
  named y hy := h.named y (List.mem_filter.mp hy).1

theorem Remembered.rewinds (h : Remembered s) (during : List String) :
    Remembered (during.foldl ForwardState.rewind s) := by
  induction during generalizing s with
  | nil => exact h
  | cons stream during ih => exact ih (h.rewind stream)

/-- **The versions are read**: what is remembered after that was shown. -/
theorem Remembered.takeRewinds (h : Remembered s) :
    Remembered { s with memory := s.memory.takeRewinds s.versions } ∧
      ∀ identity, ((s.memory.takeRewinds s.versions).delivered identity).isSome = true →
        ∃ y ∈ s.shown, envelopeIdentity y.1 = some identity := by
  have hshown (identity stream : String)
      (hdelivered : (s.memory.takeRewinds s.versions).delivered identity = some stream) :
      ∃ y ∈ s.shown, envelopeIdentity y.1 = some identity ∧ strOf (rowStream y.1) = stream := by
    obtain ⟨hheld, hversion⟩ := Option.filter_eq_some_iff.mp hdelivered
    refine h.shown identity stream hheld ?_
    have hle := h.seen stream
    simp only [Bool.decide_or, Bool.or_eq_true, decide_eq_true_eq] at hversion
    omega
  refine ⟨⟨fun stream => le_refl _, fun identity stream hdelivered _ => hshown identity stream hdelivered,
    h.named⟩, fun identity hsome => ?_⟩
  obtain ⟨stream, hstream⟩ := Option.isSome_iff_exists.mp hsome
  obtain ⟨y, hy, hidentity, -⟩ := hshown identity stream hstream
  exact ⟨y, hy, hidentity⟩

theorem MailLine.shownRows_subset (l : MailLine) (m : Memory) (output : Output) :
    ∀ x ∈ l.shownRows m output, x ∈ l.rows := by
  cases output with
  | line text => exact fun x hx => hx
  | report record =>
    exact fun x hx => (remainingRows_sublist Prod.fst m.delivered [] l.rows).subset hx

section

variable (h : Remembered s)
include h

/-- **Rows are shown and remembered.** -/
theorem Remembered.remember {rows : List ReportedRow} {identities : List (String × String)}
    (hrows : ∀ y ∈ rows, ∀ e ∈ y.2, ∀ place ∈ envelopePlace y.1, place.stream = e.stream)
    (hidentities : ∀ p ∈ identities, ∃ z ∈ rows, envelopeIdentity z.1 = some p.1 ∧
      strOf (rowStream z.1) = p.2) :
    Remembered { s with memory := s.memory.remember identities, shown := rows ++ s.shown } where
  seen := h.seen
  shown identity stream hdelivered hfresh := by
    rcases Option.or_eq_some_iff.mp hdelivered with hnew | ⟨-, hold⟩
    · obtain ⟨before, behind, hsplit, -⟩ := List.lookup_eq_some_iff.mp hnew
      obtain ⟨z, hz, hz'⟩ := hidentities (identity, stream) (by rw [hsplit]; simp)
      exact ⟨z, List.mem_append_left _ hz, hz'⟩
    · obtain ⟨y, hy, hy'⟩ := h.shown identity stream hold hfresh
      exact ⟨y, List.mem_append_right _ hy, hy'⟩
  named y hy := by
    rcases List.mem_append.mp hy with hnew | hold
    · exact hrows y hnew
    · exact h.named y hold

theorem Remembered.forward (l : MailLine) (readable : Bool) :
    Remembered { s with memory := (s.forward l readable).1 } := by
  rcases (forwards s.memory (if readable then some s.versions else none) l).memory with
    hsame | ⟨versions, hread, htaken⟩
  · rw [show (s.forward l readable).1 = s.memory from hsame]
    exact h
  · rw [show (s.forward l readable).1 = s.memory.takeRewinds versions from htaken]
    cases readable with
    | false => cases hread
    | true =>
      cases hread
      exact h.takeRewinds.1

/-- **A step keeps the invariant.** -/
theorem Remembered.step (a : ForwardAction) :
    Remembered (s.step a) := by
  cases a with
  | rewind stream => exact h.rewind stream
  | line childKind l readable during written =>
    unfold ForwardState.step
    simp only
    split
    · exact h
    · have hspec := forwards s.memory (if readable then some s.versions else none) l
      have hrewound := (h.forward l readable).rewinds during
      cases hout : (s.forward l readable).2 with
      | none => exact hrewound
      | some out =>
        obtain ⟨output, identities⟩ := out
        simp only
        split
        · refine hrewound.remember ?_ (hspec.identities output identities hout)
          intro y hy e he place hplace
          exact (l.names y (l.shownRows_subset _ output y hy) e he place hplace).1
        · exact ⟨hrewound.seen, hrewound.shown, hrewound.named⟩

/-- **A row that is not written** is mail of one place with a row that is written now, or was
shown. -/
theorem Remembered.mem_writes_or (l : MailLine) (readable : Bool) :
    ∀ x ∈ l.rows, x ∈ s.writes l readable ∨
      (backlogCapableRow x.1 = true ∧ (envelopePlace x.1).isSome = true ∧
        ∃ y ∈ s.writes l readable ++ s.shown, envelopePlace y.1 = envelopePlace x.1) := by
  intro x hx
  have hspec := forwards s.memory (if readable then some s.versions else none) l
  rcases hspec.kept x hx with hwritten | ⟨hcapable, identity, hidentity, hknown⟩
  · exact .inl hwritten
  · have hplace : (envelopePlace x.1).isSome = true := by
      obtain ⟨place, hplace, -⟩ := Option.map_eq_some_iff.mp hidentity
      rw [hplace]
      rfl
    refine .inr ⟨hcapable, hplace, ?_⟩
    rcases hknown with ⟨hdelivered, versions, hread, htaken⟩ | ⟨z, hz, hz'⟩
    · rw [htaken] at hdelivered
      cases readable with
      | false => cases hread
      | true =>
        cases hread
        obtain ⟨y, hy, hy'⟩ := h.takeRewinds.2 identity hdelivered
        exact ⟨y, List.mem_append_right _ hy, envelopePlace_eq_of_identity hy' hidentity⟩
    · exact ⟨z, List.mem_append_left _ hz, envelopePlace_eq_of_identity hz' hidentity⟩

/-- **Nothing is lost of a line**, where a place has one event. -/
theorem Remembered.lineKept {l : MailLine} {readable : Bool}
    (hone : ∀ x ∈ l.rows, ∀ e ∈ x.2, ∀ y ∈ l.rows ++ s.shown,
      (envelopePlace x.1).isSome = true → envelopePlace y.1 = envelopePlace x.1 → y.2 = some e) :
    LineKept s l readable where
  events x hx e he := by
    rcases h.mem_writes_or l readable x hx with hwritten | ⟨-, hsome, y, hy, hplace⟩
    · exact ⟨x, List.mem_append_left _ hwritten, he⟩
    · refine ⟨y, hy, hone x hx e he y ?_ hsome hplace⟩
      rcases List.mem_append.mp hy with hwritten | hshown
      · refine List.mem_append_left _ ?_
        unfold ForwardState.writes at hwritten
        cases hout : (s.forward l readable).2 with
        | none =>
          rw [hout] at hwritten
          cases hwritten
        | some out =>
          rw [hout] at hwritten
          exact l.shownRows_subset _ out.1 y hwritten
      · exact List.mem_append_right _ hshown
  escalations x hx _ := (h.mem_writes_or l readable x hx).imp_right fun hplace => hplace.2.2
  health x hx htype := by
    rcases h.mem_writes_or l readable x hx with hwritten | ⟨hcapable, -⟩
    · exact hwritten
    · unfold backlogCapableRow at hcapable
      simp only [Bool.and_eq_true, decide_eq_true_eq] at hcapable
      exact absurd htype hcapable.2
  rest := (forwards s.memory (if readable then some s.versions else none) l).rest

end

instance (s : ForwardState) (a : ForwardAction) : Decidable (OnePlaceOneEvent s a) := by
  unfold OnePlaceOneEvent
  cases a <;> infer_instance

/-- An event for a controller. -/
def attentionFor (recipient uuid : String) : MailEvent := ⟨recipient, uuid, "attention", 1⟩

/-- A doorbell's line for the event of a controller. -/
def ownAttention : MailLine where
  text := "[controller_attention] attention seq=1 — resume d-1".toList
  events := [some (attentionFor "main" "a")]
  length_events := by decide +kernel
  names := by decide +kernel

/-- A doorbell's line for an event for all. -/
def sharedAttention : MailLine where
  text := "[controller_attention] attention seq=1 — disk full".toList
  events := [some (attentionFor "*" "b")]
  length_events := by decide +kernel
  names := by decide +kernel

end GoalFlight.Wake
