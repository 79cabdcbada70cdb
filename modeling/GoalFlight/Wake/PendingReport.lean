import GoalFlight.Capacity.Admission
import GoalFlight.Journal.Cursor
import GoalFlight.Library.Checks
import GoalFlight.Library.Machine

/-!
# Wake: the pending-report claim

The first listener of a lease generation that reports unread mail claims the report: a file with the
position of each stream, a token, and the process that made it.  It is acquired, or taken over from
a dead owner; marked reported; acknowledged stream by stream as the cursor reaches them; and
released by its positions.

The label and the nonce of the generation are fixed.  An operation that finds the lock busy raises
and does nothing.
-/

namespace GoalFlight.Wake

open Relational Capacity

/-! ### The file -/

/-- One generation of a process: its pid, and the token of its start. -/
structure Generation where
  pid : ℕ
  startToken : String
deriving DecidableEq

/-- The phase of a claim. -/
inductive Phase
  | claimed
  | reported
  | acknowledged
deriving DecidableEq

/-- Two mappings are equal. -/
def SameItems {β : Type} (d d' : Dict β) : Prop := d.rows ⊆ d'.rows ∧ d'.rows ⊆ d.rows

instance {β : Type} [DecidableEq β] (d d' : Dict β) : Decidable (SameItems d d') := by
  unfold SameItems
  infer_instance

/-- Two mappings have the same keys. -/
def SameKeys {β γ : Type} (d : Dict β) (d' : Dict γ) : Prop :=
  d.rows.map Prod.fst ⊆ d'.rows.map Prod.fst ∧ d'.rows.map Prod.fst ⊆ d.rows.map Prod.fst

instance {β γ : Type} (d : Dict β) (d' : Dict γ) : Decidable (SameKeys d d') := by
  unfold SameKeys
  infer_instance

/-- The positions of streams, as a claim can hold them. -/
structure Positions where
  dict : Dict ℕ
  positive : ∀ e ∈ dict, 1 ≤ e.2

/-- What is to be reported: positions, and for a cursor version the snapshot of each stream. -/
structure Boundary where
  positions : Positions
  cursorVersion : Option ℕ
  streamSnapshots : Dict String
  complete : cursorVersion.isSome = true → SameKeys streamSnapshots positions.dict

/-- `PendingReportState`, as its reader accepts it: a file without an owner is refused. -/
structure PendingReportState where
  phase : Phase
  boundary : Boundary
  claimToken : String
  owner : Generation

namespace Positions

def empty : Positions := ⟨.empty, nofun⟩

/-- `positions[stream] = position`. -/
def set (d : Positions) (stream : String) (position : ℕ) (h : 1 ≤ position) : Positions where
  dict := KeyedTable.set d.dict (stream, position)
  positive := by
    intro e he
    rcases List.mem_append.mp he with hold | hnew
    · exact d.positive e (List.mem_filter.mp hold).1
    · rw [List.mem_singleton.mp hnew]
      exact h

/-- `positions.get(stream, 0)`. -/
def get (d : Positions) (stream : String) : ℕ :=
  ((KeyedTable.get? d.dict stream).map Prod.snd).getD 0

/-- The streams that these positions do not reach. -/
def remainder (d reached : Positions) : Positions where
  dict := d.dict.filter fun e => reached.get e.1 < e.2
  positive := fun e he => d.positive e (Table.mem_filter.mp he).1

end Positions

/-! ### Arguments -/

/-- The positions with one more argument. -/
def normalizePosition (d : Positions) (e : String × ℤ) : Except String Positions :=
  let stream := strip e.1
  if stream = "" then .ok d
  else if h : 1 ≤ e.2.toNat then .ok (d.set stream e.2.toNat h)
  else .error "pending-report position is invalid"

/-- `_normalize_pending_report_positions`. -/
def normalizePositions (positions : List (String × ℤ)) : Except String Positions :=
  positions.foldlM normalizePosition .empty

/-- `_normalize_pending_report_snapshots`, where `int(text, 16)` reads what is hexadecimal. -/
def normalizeSnapshots (hexadecimal : String → Bool) (snapshots : List (String × String)) :
    Except String (Dict String) :=
  snapshots.foldlM (fun d e =>
    let stream := strip e.1
    let snapshot := strip e.2
    if stream = "" ∨ snapshot.length ≠ 64 ∨ hexadecimal snapshot = false then
      .error "pending-report stream snapshot is invalid"
    else .ok (KeyedTable.set d (stream, snapshot))) .empty

/-- The boundary that is asked for, where positions are given. -/
def requireBoundary (positions : Option Positions) (cursorVersion : Option ℤ)
    (snapshots : Dict String) : Except String (Option Boundary) :=
  match cursorVersion, positions with
  | none, none => .ok none
  | none, some d => .ok (some ⟨d, none, snapshots, nofun⟩)
  | some version, none =>
    if version < 0 then .error "pending-report cursor version is invalid"
    else .error "pending-report snapshot boundary is incomplete"
  | some version, some d =>
    if version < 0 then .error "pending-report cursor version is invalid"
    else if h : SameKeys snapshots d.dict then
      .ok (some ⟨d, some version.toNat, snapshots, fun _ => h⟩)
    else .error "pending-report snapshot boundary is incomplete"

/-! ### The operations -/

/-- An answer, and the file that is left.  An operation that raises does so before it writes. -/
abbrev Answer (α : Type) := α × Option PendingReportState

/-- `acquire_pending_report` by a process, which finds out about the owner by `liveness`. -/
def acquirePendingReport (hexadecimal : String → Bool) (process : Generation)
    (liveness : Generation → Option Bool) (claimToken : String)
    (positions : Option (List (String × ℤ))) (cursorVersion : Option ℤ)
    (streamSnapshots : List (String × String)) (file : Option PendingReportState) :
    Except String (Answer (Option PendingReportState)) := do
  let normalized ← positions.mapM normalizePositions
  let snapshots ← normalizeSnapshots hexadecimal streamSnapshots
  let boundary ← requireBoundary normalized cursorVersion snapshots
  match file with
  | some current =>
    if current.phase = .acknowledged ∨ liveness current.owner ≠ some false then
      .ok (none, file)
    else
      let claimed := ⟨.claimed, current.boundary, claimToken, process⟩
      .ok (some claimed, some claimed)
  | none =>
    match boundary with
    | none => .ok (none, none)
    | some boundary =>
      let claimed := ⟨.claimed, boundary, claimToken, process⟩
      .ok (some claimed, some claimed)

/-- `mark_pending_report_reported`. -/
def markPendingReportReported (process : Generation) (claimToken : String)
    (file : Option PendingReportState) : Except String (Answer Bool) :=
  if strip claimToken = "" then
    .error "controller label, lease nonce, and claim token are required"
  else
    match file with
    | none => .error "pending-report claim disappeared before report"
    | some current =>
      if current.claimToken ≠ strip claimToken then .ok (false, file)
      else if current.phase ≠ .claimed then .ok (true, file)
      else if current.owner ≠ process then .ok (false, file)
      else .ok (true, some { current with phase := .reported })

/-- The boundary of the streams that are left. -/
def Boundary.shrink (b : Boundary) (reached : Positions) : Boundary where
  positions := b.positions.remainder reached
  cursorVersion := b.cursorVersion
  streamSnapshots := b.streamSnapshots.filter fun e =>
    e.1 ∈ (b.positions.remainder reached).dict.rows.map Prod.fst
  complete := by
    intro hversion
    obtain ⟨hsnapshots, hpositions⟩ := b.complete hversion
    constructor
    · intro stream hstream
      obtain ⟨e, he, rfl⟩ := List.mem_map.mp hstream
      exact (Table.mem_filter.mp he).2
    · intro stream hstream
      obtain ⟨e, he, rfl⟩ := List.mem_map.mp hstream
      have hold : e.1 ∈ b.positions.dict.rows.map Prod.fst :=
        List.mem_map_of_mem (Table.mem_filter.mp he).1
      obtain ⟨e', he', hkey⟩ := List.mem_map.mp (hpositions hold)
      refine List.mem_map.mpr ⟨e', Table.mem_filter.mpr ⟨he', ?_⟩, hkey⟩
      rw [hkey]
      exact hstream

/-- `acknowledge_pending_report`. -/
def acknowledgePendingReport (positions : List (String × ℤ)) (file : Option PendingReportState) :
    Except String (Answer Bool) := do
  let normalized ← normalizePositions positions
  match file with
  | none => .ok (false, none)
  | some current =>
    let remainder := current.boundary.positions.remainder normalized
    if current.phase = .acknowledged then .ok (true, file)
    else if SameItems remainder.dict current.boundary.positions.dict then .ok (false, file)
    else if remainder.dict.rows ≠ [] then
      .ok (false, some { current with boundary := current.boundary.shrink normalized })
    else .ok (true, some { current with phase := .acknowledged })

/-- `release_pending_report_claim`. -/
def releasePendingReportClaim (positions : List (String × ℤ))
    (file : Option PendingReportState) : Except String (Answer Bool) := do
  let normalized ← normalizePositions positions
  match file with
  | none => .ok (false, none)
  | some current =>
    if SameItems current.boundary.positions.dict normalized.dict then .ok (true, none)
    else .ok (false, file)

/-! ### What an operation leaves -/

variable {hexadecimal : String → Bool} {process : Generation}
  {liveness : Generation → Option Bool} {claimToken : String}
  {file file' : Option PendingReportState}

theorem positions_of_requireBoundary {positions : Option Positions} {version : Option ℤ}
    {snapshots : Dict String} {b : Boundary}
    (h : requireBoundary positions version snapshots = .ok (some b)) :
    positions = some b.positions := by
  unfold requireBoundary at h
  split at h
  · cases h
  · cases h
    rfl
  · split at h <;> cases h
  · split at h
    · cases h
    · split at h
      · cases h
        rfl
      · cases h

/-- **What `acquire_pending_report` leaves**: the file as it was, the claim of a dead owner in
the hands of the process, or a new claim. -/
theorem acquirePendingReport_cases {positions : Option (List (String × ℤ))}
    {version : Option ℤ} {snapshots : List (String × String)}
    {v : Option PendingReportState}
    (h : acquirePendingReport hexadecimal process liveness claimToken positions version snapshots
      file = .ok (v, file')) :
    file' = file ∨
      (∃ current, file = some current ∧ current.phase ≠ .acknowledged ∧
        liveness current.owner = some false ∧
        file' = some ⟨.claimed, current.boundary, claimToken, process⟩) ∨
      (file = none ∧ ∃ raw b, positions = some raw ∧ normalizePositions raw = .ok b.positions ∧
        file' = some ⟨.claimed, b, claimToken, process⟩) := by
  unfold acquirePendingReport at h
  obtain ⟨normalized, hnormalized, h⟩ := Checks.bind_eq_ok.mp h
  obtain ⟨_, -, h⟩ := Checks.bind_eq_ok.mp h
  obtain ⟨boundary, hboundary, h⟩ := Checks.bind_eq_ok.mp h
  cases file with
  | some current =>
    simp only at h
    split at h
    · cases h
      exact .inl rfl
    · rename_i hfree
      push Not at hfree
      cases h
      exact .inr (.inl ⟨current, rfl, hfree.1, hfree.2, rfl⟩)
  | none =>
    cases boundary with
    | none =>
      cases h
      exact .inl rfl
    | some b =>
      cases h
      have hpositions := positions_of_requireBoundary hboundary
      cases positions with
      | none =>
        cases hnormalized
        cases hpositions
      | some raw =>
        obtain ⟨d, hd, hsome⟩ := Checks.bind_eq_ok.mp hnormalized
        cases hsome
        cases hpositions
        exact .inr (.inr ⟨rfl, raw, b, rfl, hd, rfl⟩)

/-- **What `mark_pending_report_reported` leaves**: only the owner moves a claim on. -/
theorem markPendingReportReported_cases {v : Bool}
    (h : markPendingReportReported process claimToken file = .ok (v, file')) :
    file' = file ∨ ∃ current, file = some current ∧ current.owner = process ∧
      current.phase = .claimed ∧ file' = some { current with phase := .reported } := by
  unfold markPendingReportReported at h
  split at h
  · cases h
  split at h
  · cases h
  rename_i current
  split at h
  · cases h
    exact .inl rfl
  split at h
  · cases h
    exact .inl rfl
  rename_i hphase
  split at h
  · cases h
    exact .inl rfl
  · rename_i howner
    cases h
    exact .inr ⟨current, rfl, not_not.mp howner, not_not.mp hphase, rfl⟩

/-- **What `acknowledge_pending_report` leaves** of a claim that is not acknowledged yet: the
streams that it does not reach, or an acknowledged claim. -/
theorem acknowledgePendingReport_cases {raw : List (String × ℤ)} {v : Bool}
    (h : acknowledgePendingReport raw file = .ok (v, file')) :
    ∃ d, normalizePositions raw = .ok d ∧
      ((file' = file ∧ ∀ current, file = some current → current.phase ≠ .acknowledged →
          ∀ e ∈ current.boundary.positions.dict, d.get e.1 < e.2) ∨
        ∃ current, file = some current ∧ current.phase ≠ .acknowledged ∧
          (((∃ e ∈ current.boundary.positions.dict, d.get e.1 < e.2) ∧
              file' = some { current with boundary := current.boundary.shrink d }) ∨
            ((∀ e ∈ current.boundary.positions.dict, e.2 ≤ d.get e.1) ∧
              file' = some { current with phase := .acknowledged }))) := by
  unfold acknowledgePendingReport at h
  obtain ⟨d, hd, h⟩ := Checks.bind_eq_ok.mp h
  refine ⟨d, hd, ?_⟩
  cases file with
  | none =>
    cases h
    exact .inl ⟨rfl, nofun⟩
  | some current =>
  simp only at h
  split at h
  · rename_i hphase
    cases h
    refine .inl ⟨rfl, fun c hc hne => ?_⟩
    cases hc
    exact absurd hphase hne
  rename_i hphase
  split at h
  · rename_i hsame
    cases h
    refine .inl ⟨rfl, fun c hc _ e he => ?_⟩
    cases hc
    exact (Table.mem_filter.mp (hsame.2 he)).2
  split at h
  · rename_i hleft
    cases h
    obtain ⟨e, he⟩ := List.exists_mem_of_ne_nil _ hleft
    have hkept := Table.mem_filter.mp he
    exact .inr ⟨current, rfl, hphase, .inl ⟨⟨e, hkept.1, hkept.2⟩, rfl⟩⟩
  · rename_i hnone
    cases h
    refine .inr ⟨current, rfl, hphase, .inr ⟨fun e he => ?_, rfl⟩⟩
    by_contra hlt
    have hmem : e ∈ (current.boundary.positions.remainder d).dict :=
      Table.mem_filter.mpr ⟨he, not_le.mp hlt⟩
    rw [Table.mem_def, not_not.mp hnone] at hmem
    exact List.not_mem_nil hmem

/-- **What `release_pending_report_claim` leaves**: nothing, where the positions are those of
the claim. -/
theorem releasePendingReportClaim_cases {raw : List (String × ℤ)} {v : Bool}
    (h : releasePendingReportClaim raw file = .ok (v, file')) :
    file' = file ∨ ∃ current d, file = some current ∧ normalizePositions raw = .ok d ∧
      SameItems current.boundary.positions.dict d.dict ∧ file' = none := by
  unfold releasePendingReportClaim at h
  obtain ⟨d, hd, h⟩ := Checks.bind_eq_ok.mp h
  cases file with
  | none =>
    cases h
    exact .inl rfl
  | some current =>
    simp only at h
    split at h
    · rename_i hsame
      cases h
      exact .inr ⟨current, d, rfl, hd, hsame, rfl⟩
    · cases h
      exact .inl rfl

end GoalFlight.Wake
