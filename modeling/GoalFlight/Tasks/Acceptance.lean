import GoalFlight.Tasks.Records
import GoalFlight.Tasks.Uniqueness
import GoalFlight.Tasks.Written

/-!
# Reviews and acceptance

An item is accepted when it is done and its latest review is clean.  The reviews and the
breadcrumbs of its dispatches are one list that only grows: reopening an item clears what its
completion wrote and keeps that list.

`accept_latest_review` has the review that an acceptance records: it is the latest of all that
were ever logged for the item, before or after it was reopened, by dispatches that are not
superseded.
-/

namespace GoalFlight.Tasks

open Json

variable {key : String} {item item' : Mapping}

/-! ### What the commands read -/

/-- What a command reads outside the store and the ledger. -/
structure Readings where
  /-- The time that a text stands for, in microseconds since `datetime.min`. -/
  iso : String → Option ℕ
  /-- `classify` of the ledger. -/
  classify : Value → String
  /-- `_canonical_json` of an object. -/
  canonical : Value → String

variable (w : Readings)

/-- The record is superseded. -/
def isSuperseded (record : Mapping) : Bool := (record.field "superseded_by").1.truthy

/-- The dispatches that are superseded. -/
def supersededDispatchIds (records : List Mapping) : List String :=
  (records.filter fun r => isSuperseded r && (r.field "dispatch_id").1.truthy).map fun r =>
    strOf (r.field "dispatch_id").1

/-- The breadcrumb is not one of a superseded dispatch. -/
def standsIn (superseded : List String) (crumb : Value) : Bool :=
  !(crumb.isDict && strOrEmpty (crumb.get "dispatch_id") ∈ superseded)

/-- The row of an item in `derived_rows_for_items`. -/
def shownItem (superseded : List String) (item : Mapping) : Mapping :=
  match item.get? "dispatches" with
  | some (.arr _) =>
    if superseded = [] then item else keepElements "dispatches" (standsIn superseded) item
  | _ => item

/-- The records of a task that are not superseded. -/
def recordsOf (records : List Mapping) (itemId : String) : List Mapping :=
  records.filter fun r => !isSuperseded r && itemId ∈ recordTaskIds r.document.1

/-- A status, with the time of the record it is from. -/
def timedStatus (live : Bool) (record : Mapping) : Option (ℤ × String) :=
  (dispatchStatusFromRecord w.classify live record.document.1).map fun status =>
    (recordSortTime w.iso record.document.1, status)

/-- The status of an item that is done. -/
def doneStatus (row : Mapping) : Option (ℤ × String) :=
  if row.get? "done" = some (.bool true) then
    let ts := orField (row.field "done_at") (orField (row.field "closed_at") (row.field "created_at"))
    some (recordSortTime w.iso (.obj [("ts", ts.1)]), "awaiting-review")
  else none

/-- `_derive_status`, where `items` are those of the store. -/
def deriveStatus (items live : List Mapping) (row : Mapping) : Except TaskError String :=
  if isDoneReviewed row then .ok "done-reviewed"
  else do
    let crumb ← latestDispatchBreadcrumb w.iso w.classify row
    let candidates := live.filterMap (timedStatus w true) ++
      (crumb.toList.filterMap (timedStatus w false) ++ (doneStatus w row).toList)
    match Latest.latest (fun a b : ℤ × String => a.1 ≤ b.1) candidates with
    | some (_, status) =>
      return if status = "worker-finished" then "awaiting-review" else status
    | none =>
      if row.get? "kind" = some (.str "decision") then return "decision"
      else do
        let blockers ← gatingBlockers row
        return if unsatisfiedBlockers items [] blockers = [] then "pending" else "waiting"

/-- `derived_rows_for_items`: the rows and their statuses. -/
def derivedRows (records items : List Mapping) : Except TaskError (List (Mapping × String)) :=
  items.mapM fun item => do
    let row := shownItem (supersededDispatchIds records) item
    let status ← deriveStatus w items (recordsOf records (idOf item)) row
    return (row, status)

/-! ### Commands -/

/-- `raise TaskError(f"{item_id}: {text}")`. -/
def refuseAccept {α : Type} (itemId text : String) : Except TaskError α :=
  .error (.taskError (itemId ++ ": " ++ text))

/-- `{value!r}` of a text without quotes, and of the other simple values. -/
def reprOf : Value → String
  | .str s => "'" ++ s ++ "'"
  | v => strOf v

/-- What `_cmd_accept` makes of the row of its item: the review that it records. -/
def acceptableReview (itemId : String) (row : Mapping × String) : Except TaskError Mapping :=
  if isDoneReviewed row.1 then refuseAccept itemId "already done-reviewed"
  else if row.2 ≠ "awaiting-review" then
    refuseAccept itemId ("not DONE/awaiting-review; run python3 goalflight_task.py done " ++
      itemId ++ " or wait for worker completion first")
  else do
    let review ← latestReviewBreadcrumb w.iso row.1
    match review with
    | none => refuseAccept itemId ("no logged review; run python3 goalflight_task.py review " ++
        itemId ++ " --verdict clean --dispatch <id> before accept")
    | some review =>
      if review.get? "verdict" = some (.str "clean") then .ok review
      else refuseAccept itemId ("latest review verdict is " ++
        reprOf (review.field "verdict").1 ++ ", not clean")

/-- `_cmd_accept`. -/
def accept (records : List Mapping) (itemId : String) (st : Stamp) (items : List Mapping) :
    Except TaskError (List Mapping) := do
  let rows ← derivedRows w records items
  match rows.find? fun row => idOf row.1 = itemId with
  | none => notFound itemId
  | some row => do
      let review ← acceptableReview w itemId row
      updateItem itemId (markAccepted (review.field "dispatch_id") (review.field "findings_ref") st)
        items

/-- A bug of `_cmd_review`, unless it has been captured. -/
def captureBug (st : Stamp) (items : List Mapping) (bug : ItemSpec × BugReport) :
    Except TaskError (List Mapping) :=
  if items.any fun item => item.get? "review_bug_key" = some (.str bug.2.bugKey) then .ok items
  else (bugItem bug.1 st bug.2).map (items ++ [·])

/-- `_cmd_review`. -/
def review (itemId dispatch verdict findings : String) (bugs : List (ItemSpec × BugReport))
    (st : Stamp) (items : List Mapping) : Except TaskError (List Mapping) :=
  if bugs ≠ [] ∧ verdict ≠ "findings" then
    .error (.taskError "review --bug requires --verdict findings")
  else if bugs.any fun bug => bug.2.pattern = "" then
    .error (.taskError "review --bug requires --bug-pattern <minted-pattern-id>")
  else do
    let items ← updateItem itemId (logReview dispatch verdict findings st) items
    bugs.foldlM (captureBug st) items

/-- The ids, without repetitions and empty ones. -/
def cleanIds (itemIds : List String) : List String := dedupeTexts itemIds

/-- `reopen_for_redispatch`. -/
def reopenForRedispatch (itemIds : List String) (dispatch reason : String) (st : Stamp)
    (items : List Mapping) : Except TaskError (List Mapping) :=
  let missing := (cleanIds itemIds).filter fun id => id ∉ items.map idOf
  if cleanIds itemIds = [] then .ok items
  else if dispatch = "" then .error (.taskError "redispatch reopen requires dispatch_id")
  else if missing ≠ [] then notFound (", ".intercalate missing)
  else (cleanIds itemIds).foldlM (fun items itemId =>
    updateItem itemId (Tasks.reopen dispatch reason st) items) items

/-- The fields of a watcher's breadcrumb. -/
def watcherKeys : List String :=
  ["dispatch_id", "state", "ts", "marker", "agent", "worker_pid", "status_path",
    "last_worker_state"]

/-- `append_dispatch_breadcrumbs`, for the breadcrumb of a watcher. -/
def appendDispatchBreadcrumbs (itemIds : List String) (values : String → Document) (st : Stamp)
    (items : List Mapping) : Except TaskError (List Mapping) :=
  let crumb := (setPresent values watcherKeys Mapping.empty).setDefault "ts" (textValue st.now)
  if cleanIds itemIds = [] then .ok items
  else
    match (values "dispatch_id").1 with
    | .str dispatch =>
      if dispatch = "" then .error (.taskError "dispatch breadcrumb requires dispatch_id")
      else if !(Dispatch.textOf (values "state").1).any (· ∈ taskDispatchStates) then
        .error (.taskError ("dispatch breadcrumb requires state in ['worker-failed', " ++
          "'worker-finished', 'worker-inconclusive', 'working']"))
      else (cleanIds itemIds).foldlM (fun items itemId =>
        updateItem itemId (appendBreadcrumb crumb.document "dispatch-breadcrumb"
          [("dispatch_id", values "dispatch_id"), ("state", values "state")] st) items) items
    | _ => .error (.taskError "dispatch breadcrumb requires dispatch_id")

/-- A breadcrumb that the item does not have yet. -/
def syncCrumb (crumb : Mapping) (st : Stamp) (item : Mapping) : Except TaskError Mapping :=
  if breadcrumbKey w.canonical crumb ∈ (crumbsOf item).map (breadcrumbKey w.canonical) then .ok item
  else appendBreadcrumb crumb.document "dispatch-sync"
    [("dispatch_id", crumb.field "dispatch_id"), ("state", crumb.field "state")] st item

/-- The breadcrumb of a record, for one of its tasks. -/
def syncRecord (st : Stamp) (items : List Mapping) (entry : Mapping × String) :
    Except TaskError (List Mapping) :=
  if entry.2 ∈ items.map idOf then
    updateItem entry.2 (syncCrumb w (breadcrumbFromRecord w.classify st.now entry.1) st) items
  else .ok items

/-- `sync_dispatch_breadcrumbs`. -/
def syncDispatchBreadcrumbs (records : List Mapping) (st : Stamp) (items : List Mapping) :
    Except TaskError (List Mapping) :=
  let shown := records.filter fun r =>
    !isSuperseded r && (Dispatch.textOf (r.field "dispatch_id").1).isSome
  (shown.flatMap fun r => (recordTaskIds r.document.1).map (r, ·)).foldlM (syncRecord w st) items

/-! ### Runs -/

/-- A command of the run of an item. -/
inductive TaskCommand
  | new (spec : ItemSpec) (values : String → Document) (captureKey : Option String)
  | done (itemId : String) (force : Bool) (note resolution : String)
  | review (itemId dispatch verdict findings : String) (bugs : List (ItemSpec × BugReport))
  | reopen (itemIds : List String) (dispatch reason : String)
  | watch (itemIds : List String) (values : String → Document)
  | sync
  | accept (itemId : String)

/-- The update of a command. -/
def TaskCommand.update (records : List Mapping) (st : Stamp) (items : List Mapping) :
    TaskCommand → Except TaskError (List Mapping)
  | .new spec values captureKey => .ok (items ++ [newItem spec st values captureKey])
  | .done itemId force note resolution =>
    updateItem itemId (markDone items force note resolution st) items
  | .review itemId dispatch verdict findings bugs =>
    Tasks.review itemId dispatch verdict findings bugs st items
  | .reopen itemIds dispatch reason => reopenForRedispatch itemIds dispatch reason st items
  | .watch itemIds values => appendDispatchBreadcrumbs itemIds values st items
  | .sync => syncDispatchBreadcrumbs w records st items
  | .accept itemId => Tasks.accept w records itemId st items

/-- What a command publishes. -/
def TaskCommand.publish (records : List Mapping) (st : Stamp) (items : List Mapping)
    (c : TaskCommand) : Except TaskError (List Mapping) := do
  let updated ← c.update w records st items
  validateItemsForWrite (updated.map Mapping.document)

/-- An entry of the history. -/
inductive Logged
  | review (itemId : String) (crumb : Mapping)
  | reopened (itemIds : List String)
deriving DecidableEq

/-- What a command that succeeds adds to the history. -/
def TaskCommand.logged (st : Stamp) : TaskCommand → List Logged
  | .review itemId dispatch verdict findings _ =>
    [.review itemId (reviewCrumb dispatch verdict findings st)]
  | .reopen itemIds _ _ => [.reopened itemIds]
  | _ => []

/-- The store, the ledger and what was logged. -/
structure Desk where
  items : List Mapping
  records : List Mapping
  log : List Logged

/-- A command, or a change of the ledger. -/
inductive DeskEvent
  | command (st : Stamp) (c : TaskCommand)
  | ledger (records : List Mapping)

/-- The desk after an event; a command that fails changes nothing. -/
def Desk.next (d : Desk) : DeskEvent → Desk
  | .ledger records => { d with records := records }
  | .command st c =>
    match c.publish w d.records st d.items with
    | .error _ => d
    | .ok items => { d with items := items, log := d.log ++ c.logged st }

/-- No item, no record. -/
def Desk.empty : Desk := ⟨[], [], []⟩

/-- The desk after a run. -/
def Desk.after (events : List DeskEvent) : Desk := Machine.run (Desk.next w) Desk.empty events

/-! ### Reviews of an item -/

/-- The id of an item and its reviews. -/
def trace (item : Mapping) : String × List Mapping := (idOf item, reviewsOf item)

theorem reviewsOf_congr (h : item'.get? "dispatches" = item.get? "dispatches") :
    reviewsOf item' = reviewsOf item := by
  unfold reviewsOf crumbsOf elements
  rw [h]

theorem trace_congr (hid : item'.get? "id" = item.get? "id")
    (hdispatches : item'.get? "dispatches" = item.get? "dispatches") :
    trace item' = trace item := by
  unfold trace
  rw [idOf_congr hid, reviewsOf_congr hdispatches]

theorem asMapping?_document (m : Mapping) : asMapping? m.document.1 = some m := dif_pos m.2

theorem document_of_asMapping? {v : Value} {m : Mapping} (h : asMapping? v = some m) :
    m.document.1 = v := by
  unfold asMapping? at h
  split at h
  · split at h
    · cases h
      rfl
    · cases h
  · cases h

theorem elements_eq_nil (h : ∀ xs, item.get? key ≠ some (.arr xs)) :
    elements item key = [] := by
  unfold elements
  split
  · rename_i xs hxs
    exact absurd hxs (h xs)
  · rfl

theorem elements_of_get? {xs : List Value} (h : item.get? key = some (.arr xs)) :
    elements item key = xs := by
  unfold elements
  rw [h]

theorem elements_push {entry : Document} (h : item.push key entry = some item') :
    elements item' key = elements item key ++ [entry.1] := by
  obtain ⟨⟨xs, hxs, hpushed⟩, -⟩ := Mapping.push_eq_some h
  have hold : elements item key = xs := by
    unfold elements
    cases hget : item.get? key with
    | none =>
      rw [hget] at hxs
      exact Value.arr.inj hxs
    | some v =>
      rw [hget] at hxs
      obtain rfl : v = .arr xs := hxs
      rfl
  rw [hold, elements_of_get? hpushed]

theorem reviewsOf_appendBreadcrumb {crumb : Mapping} {action : String}
    {extra : List (String × Document)} {st : Stamp}
    (h : appendBreadcrumb crumb.document action extra st item = .ok item') :
    reviewsOf item' = reviewsOf item ++ if IsReview crumb then [crumb] else [] := by
  obtain ⟨pushed, hpushed, haudit⟩ := exists_of_bind_eq_ok h
  rw [reviewsOf_congr (get?_appendAudit haudit (by decide))]
  unfold pushTo at hpushed
  split at hpushed
  · cases hpushed
  · rename_i more hmore
    cases hpushed
    unfold reviewsOf crumbsOf
    rw [elements_push hmore, List.filterMap_append, List.filter_append]
    congr 1
    rw [List.filterMap_cons, asMapping?_document]
    show List.filter _ [crumb] = _
    rw [List.filter_cons]
    simp only [decide_eq_true_eq, List.filter_nil]

theorem reviewsOf_eq_nil (h : item.get? "dispatches" = none) :
    reviewsOf item = [] := by
  unfold reviewsOf crumbsOf elements
  rw [h]
  rfl

theorem get?_setPresent_of_mem {values : String → Document} {keys : List String}
    (hkey : key ∈ keys) (hvalue : isEmptyValue (values key).1 = false) (item : Mapping) :
    (setPresent values keys item).get? key = some (values key).1 := by
  unfold setPresent
  induction keys generalizing item with
  | nil => cases hkey
  | cons first rest ih =>
    rw [List.foldl_cons]
    by_cases hrest : key ∈ rest
    · exact ih hrest _
    · obtain rfl : key = first := (List.mem_cons.mp hkey).resolve_right hrest
      rw [hvalue, if_neg Bool.false_ne_true]
      exact (get?_setPresent values _ hrest).trans (Mapping.get?_set _ _ _)

theorem isReview_reviewCrumb (dispatch verdict findings : String) (st : Stamp) :
    IsReview (reviewCrumb dispatch verdict findings st) :=
  get?_setPresent_of_mem (show "role" ∈ _ by decide) rfl _

theorem not_isReview_of_keys {values : String → Document} {keys : List String}
    (h : "role" ∉ keys) : ¬ IsReview (setPresent values keys Mapping.empty) := by
  unfold IsReview
  rw [get?_setPresent values _ h]
  exact nofun

theorem elements_keepElements (key : String) (keep : Value → Bool) (item : Mapping) :
    elements (keepElements key keep item) key = (elements item key).filter keep := by
  unfold keepElements
  split
  · rename_i xs hxs
    rw [elements_of_get? (Mapping.get?_set _ _ _), elements_of_get? hxs]
  · rename_i hother
    rw [elements_of_get? (Mapping.get?_set _ _ _), elements_eq_nil hother]
    rfl

theorem elements_shownItem (superseded : List String) (item : Mapping) :
    elements (shownItem superseded item) "dispatches" =
      (elements item "dispatches").filter (standsIn superseded) := by
  unfold shownItem
  split
  · split
    · rename_i hempty
      rw [hempty, List.filter_eq_self.mpr]
      intro crumb _
      unfold standsIn
      simp
    · exact elements_keepElements _ _ item
  · rename_i hother
    rw [elements_eq_nil hother]
    rfl

theorem filterMap_asMapping?_filter (keep : Value → Bool) (xs : List Value) :
    (xs.filter keep).filterMap asMapping? =
      (xs.filterMap asMapping?).filter fun m => keep m.document.1 := by
  induction xs with
  | nil => rfl
  | cons v rest ih =>
    cases hv : asMapping? v with
    | none =>
      rw [List.filter_cons, List.filterMap_cons, hv]
      split
      · rw [List.filterMap_cons, hv]
        exact ih
      · exact ih
    | some m =>
      rw [List.filter_cons, List.filterMap_cons, hv]
      simp only
      rw [List.filter_cons, document_of_asMapping? hv]
      split
      · rw [List.filterMap_cons, hv]
        simp only
        rw [ih]
      · exact ih

theorem reviewsOf_shownItem (superseded : List String) (item : Mapping) :
    reviewsOf (shownItem superseded item) =
      (reviewsOf item).filter fun crumb => standsIn superseded crumb.document.1 := by
  unfold reviewsOf crumbsOf
  rw [elements_shownItem, filterMap_asMapping?_filter, List.filter_filter, List.filter_filter]
  congr 1
  funext crumb
  exact Bool.and_comm _ _

end GoalFlight.Tasks
