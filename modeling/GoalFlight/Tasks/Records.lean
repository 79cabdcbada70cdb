import GoalFlight.Dispatch.Documents
import GoalFlight.Library.Latest
import GoalFlight.Tasks.Mutations

/-!
# Ledger records and breadcrumbs

A ledger record of a task, and the breadcrumbs in the `dispatches` of an item: those that a
sync or a watcher leaves of a dispatch, and those that a review leaves.  All are ordered by
the times in them, and the last of the latest is the one that counts.
-/

namespace GoalFlight.Tasks

open Json

/-! ### Sort times -/

/-- The fields that `_record_sort_time` looks at. -/
def sortKeys : List String := ["ts", "updated_at", "ended_at", "started_at"]

/-- `_parse_time`, where `iso` is the time that a text stands for, in microseconds since
`datetime.min`. -/
def parseTime (iso : String → Option ℕ) : Value → ℤ
  | .str s => if s = "" then 0 else ((iso s).getD 0 : ℕ)
  | _ => 0

/-- `_record_sort_time`. -/
def recordSortTime (iso : String → Option ℕ) (record : Value) : ℤ :=
  ((sortKeys.map fun key => parseTime iso (record.get key)).find? (· ≠ 0)).getD 0

variable (iso : String → Option ℕ)

theorem parseTime_nonneg (v : Value) : 0 ≤ parseTime iso v := by
  unfold parseTime
  split
  · split
    · exact Int.le_refl 0
    · exact Int.natCast_nonneg _
  · exact Int.le_refl 0

theorem recordSortTime_nonneg (record : Value) : 0 ≤ recordSortTime iso record := by
  unfold recordSortTime
  cases hfind : (sortKeys.map fun key => parseTime iso (record.get key)).find? (· ≠ 0) with
  | none => exact Int.le_refl 0
  | some time =>
    obtain ⟨key, -, rfl⟩ := List.mem_map.mp (List.mem_of_find?_eq_some hfind)
    exact parseTime_nonneg iso _

/-- The order of breadcrumbs. -/
def timeLe (a b : Mapping) : Bool :=
  recordSortTime iso a.document.1 ≤ recordSortTime iso b.document.1

/-! ### The state of a dispatch -/

/-- `TASK_DISPATCH_STATES`. -/
def taskDispatchStates : List String :=
  ["working", "worker-finished", "worker-failed", "worker-inconclusive"]

/-- `_record_terminal_state`. -/
def recordTerminalState (record : Value) : String :=
  match record.get "terminal_state" with
  | .str s => if s ≠ "" then s else terminalOf
  | _ => terminalOf
where
  /-- `goalflight_ledger.terminal_state_for`. -/
  terminalOf : String :=
    Capacity.terminalStateFor ((Dispatch.textOf (record.get "state")).getD "")
      (Dispatch.textOf ((record.get "reason").orElse (record.get "error")))

/-- `text.strip()`. -/
def strip (text : List Char) : List Char :=
  ((text.dropWhile Messages.isSpace).reverse.dropWhile Messages.isSpace).reverse

/-- The ids in one text. -/
def taskIdParts (text : String) : List String :=
  ((text.toList.splitOn ',').map fun part => String.ofList (strip part)).filter (· ≠ "")

/-- `_record_task_ids`. -/
def recordTaskIds (record : Value) : List String :=
  let values := match record.get "task_ids" with
    | .arr xs => xs
    | .str s => [Value.str s]
    | _ => []
  let values := match record.get "task_id" with
    | .str s => Value.str s :: values
    | _ => values
  dedupeTexts ((values.filterMap Dispatch.textOf).flatMap taskIdParts)

/-- `_dispatch_status_from_record`, where `classify` is that of the ledger.  A state that is no
text is none of those named. -/
def dispatchStatusFromRecord (classify : Value → String) (live : Bool) (record : Value) :
    Option String :=
  let rawState := Dispatch.textOf (record.get "state")
  let normalized := rawState.bind Dispatch.normalizeDispatchState
  let terminal := recordTerminalState record
  if rawState.any (· ∈ taskDispatchStates) then rawState
  else if terminal = "complete" ∨ normalized = some "complete" then some "worker-finished"
  else if terminal ≠ "" ∧ terminal ≠ "unknown" then some "worker-failed"
  else if rawState.any fun s => "blocked".toList.isPrefixOf s.toList then some "worker-failed"
  else if !live then none
  else if normalized.any (· ∈ ["waiting", "starting", "running", "running_quiet"]) ∨
      rawState.any (· ∈ ["queued", "waiting_capacity", "handshaking"]) then
    let classification := classify record
    if "stale_".toList.isPrefixOf classification.toList ∨
        classification ∈ ["unknown_no_pid", "watcher_stopped"] then some "worker-failed"
    else some "working"
  else some "worker-failed"

/-! ### Breadcrumbs -/

/-- `{key: record.get(key) for key in keys}`, without the empty values. -/
def presentFields (record : Mapping) (keys : List String) : Mapping :=
  setPresent record.field keys Mapping.empty

/-- `_status_snapshot_from_record`. -/
def statusSnapshotFromRecord (record : Mapping) : Mapping :=
  presentFields record ["dispatch_id", "agent", "shape", "state", "terminal_state", "reason",
    "outcome", "worker_pid", "worker_alive", "worker_still_alive", "stdout_path", "stderr_path",
    "status_path", "updated_at", "started_at", "ended_at"]

/-- `a or b`. -/
def orField (a b : Document) : Document := if a.1.truthy then a else b

/-- The fields of a breadcrumb. -/
def breadcrumbKeys : List String :=
  ["dispatch_id", "agent", "log", "stdout_path", "stderr_path", "status_path", "started_at",
    "ended_at", "state", "ts", "terminal_state", "marker", "worker_pid", "hostname",
    "last_worker_state"]

/-- `_breadcrumb_from_record`. -/
def breadcrumbFromRecord (classify : Value → String) (now : String) (record : Mapping) : Mapping :=
  let status := fun live => dispatchStatusFromRecord classify live record.document.1
  let state := match (status true).or (status false) with
    | some s => textValue s
    | none => record.field "state"
  setPresent
    (fun key =>
      if key = "log" then orField (record.field "stdout_path") (record.field "log")
      else if key = "state" then state
      else if key = "ts" then
        orField (record.field "ended_at") (orField (record.field "updated_at")
          (orField (record.field "started_at") (textValue now)))
      else if key = "terminal_state" then textValue (recordTerminalState record.document.1)
      else if key = "last_worker_state" then
        orField (record.field "last_worker_state") (statusSnapshotFromRecord record).document
      else record.field key)
    breadcrumbKeys Mapping.empty

/-- `str(value or "")`. -/
def strOrEmpty (v : Value) : String := if v.truthy then strOf v else ""

/-- `_breadcrumb_key`, where `canonical` is `_canonical_json` of an object. -/
def breadcrumbKey (canonical : Value → String) (crumb : Mapping) : String :=
  let read := fun key => (crumb.field key).1
  let marker := match read "marker" with
    | .obj fields => canonical (.obj fields)
    | v => strOrEmpty v
  "|".intercalate [strOrEmpty (read "dispatch_id"), strOrEmpty (read "state"),
    strOrEmpty (read "ts"), marker]

/-- The value as a mapping, if it is one. -/
def asMapping? (v : Value) : Option Mapping :=
  match v with
  | .obj fields => if h : (Value.obj fields).wellFormed = true then some ⟨fields, h⟩ else none
  | _ => none

/-- The breadcrumbs of an item, without what is no object. -/
def crumbsOf (item : Mapping) : List Mapping := (elements item "dispatches").filterMap asMapping?

/-- The refusal of `dispatches` that are no array. -/
def checkDispatches (item : Mapping) : Except TaskError Unit :=
  match item.get? "dispatches" with
  | none | some (.arr _) => .ok ()
  | some v => refuseItem item ("dispatches must be an array (got " ++ typeName v ++
      "); malformed is not undispatched")

/-- `_latest_dispatch_breadcrumb`. -/
def latestDispatchBreadcrumb (classify : Value → String) (item : Mapping) :
    Except TaskError (Option Mapping) := do
  checkDispatches item
  return Latest.latest (timeLe iso) ((crumbsOf item).filter fun crumb =>
    (dispatchStatusFromRecord classify false crumb.document.1).isSome)

/-- The breadcrumb is that of a review. -/
def IsReview (crumb : Mapping) : Prop := crumb.get? "role" = some (.str "review")

instance : DecidablePred IsReview := fun crumb =>
  inferInstanceAs (Decidable (crumb.get? "role" = some (.str "review")))

/-- The reviews of an item. -/
def reviewsOf (item : Mapping) : List Mapping := (crumbsOf item).filter (IsReview ·)

/-- `_latest_review_breadcrumb`. -/
def latestReviewBreadcrumb (item : Mapping) : Except TaskError (Option Mapping) := do
  checkDispatches item
  return Latest.latest (timeLe iso) (reviewsOf item)

end GoalFlight.Tasks
