import GoalFlight.Watch.Markers

/-!
# Worktrees: the status that git prints

`git status --porcelain=v1 -z` prints one record after the other: two status letters, a blank
and a path, closed by NUL; behind a rename or a copy stands the original path, closed by NUL as
well.  `parsePorcelainZ_stream` says that the pool reads every such text as the records that it
was made of.

A record is product unless it is about untracked paths of the notes that a seat keeps.
-/

namespace GoalFlight.Worktrees

open Watch (strip startsWith)

/-- A path as git prints it. -/
abbrev GitPath := List Char

/-- A record: the letters of the index and of the worktree, the path, and where it comes from. -/
structure StatusRecord where
  x : Char
  y : Char
  path : GitPath
  original : Option GitPath

/-- `any(code in {"R", "C"} for code in status)`. -/
def isRename (x y : Char) : Bool := x = 'R' || x = 'C' || y = 'R' || y = 'C'

namespace StatusRecord

variable (r : StatusRecord)

/-- The paths of a record. -/
def paths : List GitPath := r.path :: r.original.toList

/-- What git prints for a record, without the NULs. -/
def fields : List (List Char) := (r.x :: r.y :: ' ' :: r.path) :: r.original.toList

/-- **A record of git**: its paths are not empty and without NUL, and there are two exactly
behind a rename or a copy. -/
structure WellFormed : Prop where
  path : r.path ≠ []
  original : ∀ path ∈ r.original, path ≠ []
  nul : ∀ field ∈ r.fields, '\x00' ∉ field
  rename : r.original.isSome = isRename r.x r.y

end StatusRecord

/-- What git prints. -/
def stream (records : List StatusRecord) : List Char :=
  (records.flatMap StatusRecord.fields).flatMap fun field => field ++ ['\x00']

/-! ### The parser -/

/-- Why a reset is refused. -/
inductive ResetRefused
  | malformedStatus
  | malformedRename
  | hiddenEntry
  | dirtySubmodule
  | stagedAndWorktree
  | activeFilter
  | indexMismatch (paths : List GitPath)
  | notRepresented
  | missingPaths (paths : List GitPath)
deriving DecidableEq

/-- The loop of `_parse_porcelain_z`. -/
def parseFields : List (List Char) → Except ResetRefused (List StatusRecord)
  | [] => .ok []
  | [] :: rest => parseFields rest
  | (x :: y :: ' ' :: c :: path) :: rest =>
    if isRename x y = true then
      match rest with
      | [] => .error .malformedRename
      | [] :: _ => .error .malformedRename
      | (d :: original) :: rest =>
        (parseFields rest).map (⟨x, y, c :: path, some (d :: original)⟩ :: ·)
    else (parseFields rest).map (⟨x, y, c :: path, none⟩ :: ·)
  | _ :: _ => .error .malformedStatus

/-- `_parse_porcelain_z`. -/
def parsePorcelainZ (output : List Char) : Except ResetRefused (List StatusRecord) :=
  parseFields (output.splitOn '\x00')

theorem splitOn_closed {fields : List (List Char)} (h : ∀ field ∈ fields, '\x00' ∉ field) :
    (fields.flatMap fun field => field ++ ['\x00']).splitOn '\x00' = fields ++ [[]] := by
  induction fields with
  | nil => rfl
  | cons field rest ih =>
    obtain ⟨hfield, hrest⟩ := List.forall_mem_cons.mp h
    rw [List.flatMap_cons, List.append_assoc, List.singleton_append,
      List.splitOn_append_cons_self_of_not_mem hfield, ih hrest, List.cons_append]

theorem parseFields_record {r : StatusRecord} (h : r.WellFormed) (rest : List (List Char)) :
    parseFields (r.fields ++ rest) = (parseFields rest).map (r :: ·) := by
  obtain ⟨x, y, path, original⟩ := r
  obtain ⟨c, path, rfl⟩ := List.exists_cons_of_ne_nil h.path
  cases original with
  | none =>
    have hrename : isRename x y = false := h.rename.symm
    show parseFields ((x :: y :: ' ' :: c :: path) :: rest) = _
    conv_lhs => unfold parseFields
    simp only [hrename, Bool.false_eq_true, if_false]
  | some original =>
    have hrename : isRename x y = true := h.rename.symm
    obtain ⟨d, original, rfl⟩ := List.exists_cons_of_ne_nil (h.original original rfl)
    show parseFields ((x :: y :: ' ' :: c :: path) :: (d :: original) :: rest) = _
    conv_lhs => unfold parseFields
    simp only [hrename, if_true]

/-- **The parser reads what git prints**: a rename or a copy takes one field more, and no other
record does. -/
theorem parsePorcelainZ_stream {records : List StatusRecord} (h : ∀ r ∈ records, r.WellFormed) :
    parsePorcelainZ (stream records) = .ok records := by
  have hnul : ∀ field ∈ records.flatMap StatusRecord.fields, '\x00' ∉ field := by
    intro field hfield
    obtain ⟨r, hr, hmem⟩ := List.mem_flatMap.mp hfield
    exact (h r hr).nul field hmem
  unfold parsePorcelainZ stream
  rw [splitOn_closed hnul]
  clear hnul
  induction records with
  | nil => rfl
  | cons r rest ih =>
    obtain ⟨hr, hrest⟩ := List.forall_mem_cons.mp h
    rw [List.flatMap_cons, List.append_assoc, parseFields_record hr, ih hrest]
    rfl

/-! ### Product -/

/-- `SEAT_NOTES_NAMESPACE`. -/
def seatNotesNamespace : GitPath := ".goal-flight/seat".toList

/-- `is_reserved_seat_notes_path`. -/
def isReservedSeatNotesPath (relpath : GitPath) : Bool :=
  let text := strip (relpath.map fun c => if c = '\\' then '/' else c)
  let text := if startsWith "./" text = true then text.drop 2 else text
  text = seatNotesNamespace || (seatNotesNamespace ++ ['/']).isPrefixOf text

namespace StatusRecord

variable (r : StatusRecord)

/-- `_status_tree_paths`. -/
def treePaths : List GitPath :=
  if r.x = 'D' ∨ r.y = 'D' then [] else if r.x = 'R' ∨ r.y = 'R' then r.paths.take 1 else r.paths

/-- The record is about untracked paths. -/
def isUntracked : Bool := r.x = '?' && r.y = '?'

/-- `_status_is_product`. -/
def isProduct : Bool :=
  !r.isUntracked || r.paths.any fun path => !isReservedSeatNotesPath path

end StatusRecord

end GoalFlight.Worktrees
