import GoalFlight.Library.Machine
import GoalFlight.Wake.ChildLines
import Mathlib.Logic.Function.Basic

/-!
# Wake: forwarding mail

The supervisor writes what its children say to its stdout, and leaves out mail that it has written
before.  What it remembers are identities of envelopes, with their streams; it forgets those of a
stream when the journal's version of the stream says that a cursor was moved back.

The journal numbers the events of a stream for each recipient, so that two events can have one
stream and one position.  A `MailLine` is a line of a child with the event that each of its rows
reports.
-/

namespace GoalFlight.Wake

open Json
open Watch (Line strip)
open GoalFlight.Tasks (strOf)

/-! ### Memory -/

/-- `delivered_envelopes` and `seen_rewinds`. -/
structure Memory where
  /-- The stream of an identity that was written. -/
  delivered : String → Option String
  seenRewinds : String → ℕ

namespace Memory

/-- A supervisor starts empty. -/
def empty : Memory := ⟨fun _ => none, fun _ => 0⟩

/-- The versions of the streams are read; a stream without one has the version 0. -/
def takeRewinds (m : Memory) (rewinds : String → ℕ) : Memory where
  delivered identity := (m.delivered identity).filter fun stream =>
    rewinds stream = 0 ∨ rewinds stream = m.seenRewinds stream
  seenRewinds := rewinds

/-- `delivered_envelopes.update(identities)`. -/
def remember (m : Memory) (identities : List (String × String)) : Memory :=
  { m with delivered := fun identity => (identities.lookup identity).or (m.delivered identity) }

end Memory

/-- The rows of a report that remain, and the identities of these; `row` is the row of an item, and
`identities` are those of the items before. -/
def remainingRows {α : Type} (row : α → Value) (delivered : String → Option String) :
    List (String × String) → List α → List α × List (String × String)
  | identities, [] => ([], identities)
  | identities, item :: items =>
    match envelopeIdentity (row item) with
    | none =>
      let (remaining, identities) := remainingRows row delivered identities items
      (item :: remaining, identities)
    | some identity =>
      if backlogCapableRow (row item) ∧
          ((delivered identity).isSome ∨ identity ∈ identities.map Prod.fst) then
        remainingRows row delivered identities items
      else
        let (remaining, identities) := remainingRows row delivered
          ((identity, strOf (rowStream (row item))) :: identities) items
        (item :: remaining, identities)

theorem remainingRows_sublist {α : Type} (row : α → Value) (delivered : String → Option String)
    (identities : List (String × String)) (items : List α) :
    (remainingRows row delivered identities items).1.Sublist items := by
  induction items generalizing identities with
  | nil => exact List.Sublist.refl []
  | cons item items ih =>
    unfold remainingRows
    split
    · exact (ih identities).cons_cons item
    · split
      · exact (ih identities).cons item
      · exact (ih _).cons_cons item

theorem map_remainingRows {α : Type} (row : α → Value) (delivered : String → Option String)
    (identities : List (String × String)) (items : List α) :
    (remainingRows row delivered identities items).1.map row =
        (remainingRows id delivered identities (items.map row)).1 ∧
      (remainingRows row delivered identities items).2 =
        (remainingRows id delivered identities (items.map row)).2 := by
  induction items generalizing identities with
  | nil => exact ⟨rfl, rfl⟩
  | cons item items ih =>
    rw [List.map_cons]
    unfold remainingRows
    simp only [id]
    cases envelopeIdentity (row item) with
    | none => exact ⟨congrArg (row item :: ·) (ih identities).1, (ih identities).2⟩
    | some identity =>
      simp only
      split
      · exact ih identities
      · exact ⟨congrArg (row item :: ·) (ih _).1, (ih _).2⟩

/-- **A row that does not remain** is recognised: by the memory, by the rows before or by a row that
remains. -/
theorem mem_remainingRows_or {α : Type} (row : α → Value) (delivered : String → Option String)
    (identities : List (String × String)) (items : List α) :
    ∀ x ∈ items, x ∈ (remainingRows row delivered identities items).1 ∨
      (backlogCapableRow (row x) = true ∧ ∃ identity, envelopeIdentity (row x) = some identity ∧
        ((delivered identity).isSome = true ∨ identity ∈ identities.map Prod.fst ∨
          ∃ z ∈ (remainingRows row delivered identities items).1,
            envelopeIdentity (row z) = some identity)) := by
  induction items generalizing identities with
  | nil => exact nofun
  | cons item items ih =>
    intro x hx
    unfold remainingRows
    cases hidentity : envelopeIdentity (row item) with
    | none =>
      simp only
      rcases List.mem_cons.mp hx with rfl | hmem
      · exact .inl List.mem_cons_self
      · rcases ih identities x hmem with hremains | ⟨hcapable, identity, hx', hknown⟩
        · exact .inl (List.mem_cons_of_mem _ hremains)
        · refine .inr ⟨hcapable, identity, hx', hknown.imp_right (Or.imp_right ?_)⟩
          rintro ⟨z, hz, hz'⟩
          exact ⟨z, List.mem_cons_of_mem _ hz, hz'⟩
    | some own =>
      simp only
      split
      · rename_i hrepeat
        rcases List.mem_cons.mp hx with rfl | hmem
        · exact .inr ⟨hrepeat.1, own, hidentity, hrepeat.2.imp_right .inl⟩
        · exact ih identities x hmem
      · rcases List.mem_cons.mp hx with rfl | hmem
        · exact .inl List.mem_cons_self
        · rcases ih _ x hmem with hremains | ⟨hcapable, identity, hx', hknown⟩
          · exact .inl (List.mem_cons_of_mem _ hremains)
          · refine .inr ⟨hcapable, identity, hx', ?_⟩
            rcases hknown with hdelivered | hbefore | ⟨z, hz, hz'⟩
            · exact .inl hdelivered
            · rw [List.map_cons, List.mem_cons] at hbefore
              rcases hbefore with rfl | hbefore
              · exact .inr (.inr ⟨item, List.mem_cons_self, hidentity⟩)
              · exact .inr (.inl hbefore)
            · exact .inr (.inr ⟨z, List.mem_cons_of_mem _ hz, hz'⟩)

theorem exists_of_mem_identities {α : Type} (row : α → Value) (delivered : String → Option String)
    (identities : List (String × String)) (items : List α) :
    ∀ p ∈ (remainingRows row delivered identities items).2, p ∈ identities ∨
      ∃ z ∈ (remainingRows row delivered identities items).1,
        envelopeIdentity (row z) = some p.1 ∧ strOf (rowStream (row z)) = p.2 := by
  induction items generalizing identities with
  | nil => exact fun p hp => .inl hp
  | cons item items ih =>
    intro p
    unfold remainingRows
    cases hidentity : envelopeIdentity (row item) with
    | none =>
      intro hp
      refine (ih identities p hp).imp_right ?_
      rintro ⟨z, hz, hz'⟩
      exact ⟨z, List.mem_cons_of_mem _ hz, hz'⟩
    | some own =>
      simp only
      split
      · exact ih identities p
      · intro hp
        rcases ih _ p hp with hbefore | ⟨z, hz, hz'⟩
        · rcases List.mem_cons.mp hbefore with rfl | hbefore
          · exact .inr ⟨item, List.mem_cons_self, hidentity, rfl⟩
          · exact .inl hbefore
        · exact .inr ⟨z, List.mem_cons_of_mem _ hz, hz'⟩

theorem wellFormedItems_of_sublist {xs ys : List Value} (h : xs.Sublist ys)
    (hys : wellFormedItems ys = true) : wellFormedItems xs = true := by
  induction h with
  | slnil => rfl
  | cons v _ ih =>
    rw [wellFormedItems, Bool.and_eq_true] at hys
    exact ih hys.2
  | cons_cons v _ ih =>
    rw [wellFormedItems, Bool.and_eq_true] at hys ⊢
    exact ⟨hys.1, ih hys.2⟩

theorem wellFormed_recordItems (record : Mapping) : wellFormedItems (recordItems record) = true := by
  unfold recordItems
  split
  · rename_i items hitems
    have h := (record.field "items").2
    rw [show (record.field "items").1 = .arr items from hitems, Value.wellFormed] at h
    exact h
  · rfl

/-- A report with those of its items that remain. -/
def reportOf (record : Mapping) (delivered : String → Option String) : Mapping :=
  record.set "items" ⟨.arr (remainingRows id delivered [] (recordItems record)).1,
    wellFormedItems_of_sublist (remainingRows_sublist id delivered [] _)
      (wellFormed_recordItems record)⟩

/-! ### Forwarding a line -/

/-- What goes to stdout: the line, or the JSON text of a report. -/
inductive Output
  | line (text : Line)
  | report (record : Mapping)

/-- The line is a report of what was pending at arming. -/
def pendingReport? (line : Line) : Option Mapping :=
  (parseChildRecord line).filter fun record => recordGet record "kind" = .str "pending-at-arm"

/-- **`forward_child_line`**, up to the write: the memory after the versions were read, what is
written, and what is remembered once it was; `rewinds` is nothing where the versions cannot be
read. -/
def forwardChildLine (m : Memory) (rewinds : Option (String → ℕ)) (line : Line) :
    Memory × Option (Output × List (String × String)) :=
  let rows := childMailRows line
  if !rows.isEmpty ∧ rewinds = none then (m, some (.line line, []))
  else
    let m := if rows.isEmpty then m else (rewinds.map m.takeRewinds).getD m
    match pendingReport? line with
    | some record =>
      let (remaining, identities) := remainingRows id m.delivered [] rows
      if remaining.length ≠ rows.length then (m, some (.report (reportOf record m.delivered), identities))
      else (m, some (.line line, identities))
    | none =>
      let identity := backlogLineIdentity line
      if isBacklogCapableLine line ∧ "envelope:".toList.isPrefixOf identity.toList then
        if (m.delivered identity).isSome then (m, none)
        else (m, some (.line line, rows.head?.toList.map fun row => (identity, strOf (rowStream row))))
      else (m, some (.line line, []))

end GoalFlight.Wake
