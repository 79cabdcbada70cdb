import GoalFlight.Library.JsonDynamic
import GoalFlight.Library.JsonMapping
import GoalFlight.Tasks.Numbers

/-!
# What the commands write into items

The `update` functions of the commands.  Each appends items, or changes fields of one item
and appends an entry to its `audit`; none removes an item or changes an id.
-/

namespace GoalFlight.Tasks

open Json

/-! ### Values -/

/-- A string value. -/
def textValue (s : String) : Document := ⟨.str s, wellFormed_str s⟩

/-- A truth value. -/
def boolValue (b : Bool) : Document := ⟨.bool b, rfl⟩

theorem wellFormedItems_texts (texts : List String) :
    wellFormedItems (texts.map Value.str) = true := by
  induction texts with
  | nil => rfl
  | cons s rest ih =>
    rw [List.map_cons, wellFormedItems, ih]
    rfl

/-- An array of strings. -/
def textsValue (texts : List String) : Document :=
  ⟨.arr (texts.map .str), by rw [Value.wellFormed]; exact wellFormedItems_texts texts⟩

/-- `value in (None, [], {})`. -/
def isEmptyExtra (v : Value) : Bool := v = .null || v = .arr [] || v = .obj []

/-- `value in (None, "", [], {})`. -/
def isEmptyValue (v : Value) : Bool := v = .str "" || isEmptyExtra v

/-- `str(value)`; of a value that is none of the simple ones, its JSON text. -/
def strOf : Value → String
  | .null => "None"
  | .bool b => if b then "True" else "False"
  | .int n => toString n
  | .str s => s
  | v => String.ofList (dumps v)

/-- `_dedupe_strs`, behind what is there. -/
def dedupeStrs (out : List String) : List Value → List String
  | [] => out
  | v :: rest =>
    if v.isAbsent || strOf v ∈ out then dedupeStrs out rest
    else dedupeStrs (out ++ [strOf v]) rest

/-- `_dedupe_strs` of texts. -/
def dedupeTexts (texts : List String) : List String := dedupeStrs [] (texts.map .str)

/-- The elements of a field that is an array. -/
def elements (item : Mapping) (key : String) : List Value :=
  match item.get? key with
  | some (.arr xs) => xs
  | _ => []

/-! ### The parts of an update -/

/-- `utc_now()` and `_actor(args)`. -/
structure Stamp where
  now : String
  actor : String

/-- `_audit`. -/
def auditEntry (action : String) (st : Stamp) (extra : List (String × Document)) : Document :=
  ((((Mapping.empty.set "at" (textValue st.now)).set "actor" (textValue st.actor)).set "action"
    (textValue action)).update (extra.filter fun field => !isEmptyExtra field.2.1)).document

/-- `raise TaskError(f"item {item_id}: {text}")`. -/
def refuseItem {α : Type} (item : Mapping) (text : String) : Except TaskError α :=
  .error (.taskError ("item " ++ idOf item ++ ": " ++ text))

/-- `item.setdefault(key, []).append(entry)`. -/
def pushTo (key : String) (entry : Document) (item : Mapping) : Except TaskError Mapping :=
  match item.push key entry with
  | none => refuseItem item (key ++ " must be an array")
  | some item => .ok item

/-- `_append_audit`. -/
def appendAudit (action : String) (st : Stamp) (extra : List (String × Document))
    (item : Mapping) : Except TaskError Mapping :=
  pushTo "audit" (auditEntry action st extra) item

/-- `item[key] = value` for the values that are not empty. -/
def setPresent (values : String → Document) (keys : List String) (item : Mapping) : Mapping :=
  keys.foldl (fun item key => if isEmptyValue (values key).1 then item else item.set key (values key))
    item

/-- `raise TaskError(f"{store.tasks_path}: item not found: {item_id}")`. -/
def notFound {α : Type} (itemId : String) : Except TaskError α :=
  .error (.taskError ("tasks.jsonl: item not found: " ++ itemId))

/-- The update of one item. -/
def updateItem (itemId : String) (f : Mapping → Except TaskError Mapping) :
    List Mapping → Except TaskError (List Mapping)
  | [] => notFound itemId
  | item :: rest =>
    if idOf item = itemId then (f item).map (· :: rest)
    else (updateItem itemId f rest).map (item :: ·)

/-! ### New items -/

/-- What `_make_item` is given. -/
structure ItemSpec where
  itemId : String
  kind : String
  title : String
  blockedBy : List String
  links : List String
  tags : List String
  lane : Option String

/-- `_make_item`. -/
def makeItem (spec : ItemSpec) (st : Stamp) (auditAction : String) : Mapping :=
  let item := Mapping.empty.update
    [("schema_version", ⟨.int itemSchemaVersion, wellFormed_int itemSchemaVersion⟩), ("id", textValue spec.itemId),
      ("kind", textValue spec.kind), ("title", textValue spec.title),
      ("blocked_by", textsValue (dedupeTexts spec.blockedBy)),
      ("links", textsValue (dedupeTexts spec.links)), ("done", boolValue false),
      ("tags", textsValue (dedupeTexts spec.tags)), ("created_at", textValue st.now),
      ("created_by", textValue st.actor), ("audit", ⟨.arr [(auditEntry auditAction st []).1], by
        rw [Value.wellFormed, wellFormedItems, (auditEntry auditAction st []).2]
        rfl⟩)]
  match spec.lane with
  | none => item
  | some lane => item.set "lane" (textValue lane)

/-- The item of `_create_item`. -/
def newItem (spec : ItemSpec) (st : Stamp) (values : String → Document)
    (captureKey : Option String) : Mapping :=
  let item := setPresent values ["acceptance", "prompt", "prompt_path", "pattern", "severity",
    "source"] (makeItem spec st "new")
  match captureKey with
  | none => item
  | some key => item.set "capture_key" (textValue key)

/-- The item of `_add_harvest_candidates`. -/
def harvestItem (spec : ItemSpec) (st : Stamp) (candidate : String → Document) :
    Except TaskError Mapping :=
  let item := setPresent candidate ["source", "source_ref", "harvest_source", "harvest_key",
    "harvest_scope", "severity", "pattern", "prompt"] (makeItem spec st "new")
  appendAudit "harvest" st
    [("source_ref", candidate "source_ref"), ("harvest_source", candidate "harvest_source")] item

/-- The item of `_cmd_import`; its links and tags are the record's as they are. -/
def importItem (spec : ItemSpec) (st : Stamp) (importKey source draftId : String) : Mapping :=
  (makeItem { spec with links := [], tags := [] } st "import").update
    [("links", textsValue spec.links), ("tags", textsValue spec.tags),
      ("import_key", textValue importKey), ("import_source", textValue source),
      ("import_draft_id", textValue draftId), ("original_draft_id", textValue draftId)]

/-- What a review says of one bug. -/
structure BugReport where
  pattern : String
  severity : String
  itemId : String
  dispatchId : String
  breadcrumbKey : String
  bugKey : String
  findings : String

/-- The bug of `_cmd_review`. -/
def bugItem (spec : ItemSpec) (st : Stamp) (bug : BugReport) : Except TaskError Mapping :=
  let item := (makeItem spec st "new").update
    [("source", textValue "review"), ("pattern", textValue bug.pattern)]
  let item := if bug.severity = "" then item else item.set "severity" (textValue bug.severity)
  let item := item.update
    [("review_item_id", textValue bug.itemId), ("review_dispatch_id", textValue bug.dispatchId),
      ("review_breadcrumb_key", textValue bug.breadcrumbKey),
      ("review_bug_key", textValue bug.bugKey)]
  let item := if bug.findings = "" then item
    else item.set "review_findings_ref" (textValue bug.findings)
  appendAudit "review-bug-capture" st
    [("review_dispatch_id", textValue bug.dispatchId), ("pattern", textValue bug.pattern)] item

/-! ### Changes of an item -/

/-- One list field of `_merge_capture_annotations`. -/
def mergeTexts (key : String) (incoming : List String) (item : Mapping) : Mapping :=
  if incoming = [] then item
  else
    let merged := dedupeStrs [] (elements item key ++ incoming.map .str)
    if item.get? key = some (textsValue merged).1 then item else item.set key (textsValue merged)

/-- `_merge_capture_annotations`, and its entry in the audit. -/
def mergeCapture (blockedBy links tags : List String) (values : String → Document) (st : Stamp)
    (item : Mapping) : Except TaskError Mapping :=
  let merged := setPresent values ["acceptance", "prompt", "prompt_path", "pattern"]
    (mergeTexts "tags" tags (mergeTexts "links" links (mergeTexts "blocked_by" blockedBy item)))
  let changed := ["blocked_by", "links", "tags", "acceptance", "prompt", "prompt_path",
    "pattern"].filter fun key => merged.get? key ≠ item.get? key
  if changed = [] then .ok item
  else appendAudit "capture-merge" st [("fields", textsValue changed)] merged

/-- The blockers of an item, which must be an array. -/
def blockersOf (item : Mapping) : Except TaskError (List Value) :=
  match item.get? "blocked_by" with
  | none => .ok []
  | some (.arr xs) => .ok xs
  | some _ => refuseItem item "blocked_by must be an array"

theorem wellFormedItems_filter {xs : List Value} (h : wellFormedItems xs = true)
    (p : Value → Bool) : wellFormedItems (xs.filter p) = true := by
  induction xs with
  | nil => rfl
  | cons v rest ih =>
    rw [wellFormedItems, Bool.and_eq_true] at h
    rw [List.filter_cons]
    split
    · rw [wellFormedItems, h.1, ih h.2]
      rfl
    · exact ih h.2

/-- The elements of the field that a test keeps. -/
def keepElements (key : String) (keep : Value → Bool) (item : Mapping) : Mapping :=
  match h : item.get? key with
  | some (.arr xs) => item.set key ⟨.arr (xs.filter keep), by
      have hxs := Mapping.wellFormed_get? h
      rw [Value.wellFormed] at hxs ⊢
      exact wellFormedItems_filter hxs keep⟩
  | _ => item.set key ⟨.arr [], wellFormed_nil⟩

/-- Blockers that are not there yet. -/
def addBlockers : List String → Mapping → Except TaskError Mapping
  | [], item => .ok item
  | blocker :: rest, item =>
    if Value.str blocker ∈ elements item "blocked_by" then addBlockers rest item
    else (pushTo "blocked_by" (textValue blocker) item).bind (addBlockers rest)

/-- `_cmd_block`. -/
def block (on : List String) (st : Stamp) (item : Mapping) : Except TaskError Mapping := do
  let _ ← blockersOf item
  let item ← addBlockers on (item.setDefault "blocked_by" ⟨.arr [], wellFormed_nil⟩)
  appendAudit "block" st [("on", textsValue on)] item

/-- `_cmd_unblock`; with nothing to remove, all of them. -/
def unblock (remove : List String) (st : Stamp) (item : Mapping) : Except TaskError Mapping := do
  let _ ← blockersOf item
  let item := keepElements "blocked_by"
    (fun v => remove ≠ [] && !remove.any fun text => v = .str text) item
  appendAudit "unblock" st [("on", textsValue remove)] item

/-- `_set_item_lane` and `_set_item_prompt_path`: a field, and the text it had. -/
def setText (key action : String) (text : String) (st : Stamp) (item : Mapping) :
    Except TaskError Mapping :=
  let old : Document :=
    match item.get? key with
    | some (.str s) => textValue s
    | _ => ⟨.null, wellFormed_null⟩
  appendAudit action st [("old_" ++ key, old), (key, textValue text)] (item.set key (textValue text))

/-- `_set_item_lane`. -/
def setLane (lane : String) : Stamp → Mapping → Except TaskError Mapping :=
  setText "lane" "lane" lane

/-- `_set_item_prompt_path`. -/
def setPromptPath (path : String) : Stamp → Mapping → Except TaskError Mapping :=
  setText "prompt_path" "set-prompt-path" path

/-- `_set_item_blocked_by`. -/
def setBlockedBy (blockers : List String) (st : Stamp) (item : Mapping) :
    Except TaskError Mapping := do
  let old ← blockersOf item
  appendAudit "set-blocked-by" st
    [("old_blocked_by", textsValue (old.map strOf)), ("blocked_by", textsValue blockers)]
    (item.set "blocked_by" (textsValue blockers))

/-- A note. -/
def noteEntry (st : Stamp) (text : String) : Document :=
  (Mapping.empty.update [("at", textValue st.now), ("actor", textValue st.actor),
    ("text", textValue text)]).document

/-- `_cmd_append`. -/
def appendNote (text : String) (st : Stamp) (item : Mapping) : Except TaskError Mapping := do
  let item ← pushTo "notes" (noteEntry st text) item
  appendAudit "append" st [] item

/-- `_is_done_reviewed`. -/
def isDoneReviewed (item : Mapping) : Bool :=
  item.get? "done_reviewed" = some (.bool true) ||
    (item.get? "kind" = some (.str "decision") && item.get? "done" = some (.bool true))

/-- The blockers that `unsatisfied_blockers` looks at. -/
def gatingBlockers (item : Mapping) : Except TaskError (List Value) :=
  match item.get? "blocked_by" with
  | none | some .null => .ok []
  | some (.arr xs) => .ok xs
  | some v => refuseItem item ("blocked_by must be an array (got " ++ typeName v ++
      "); malformed is not unblocked")

/-- `unsatisfied_blockers`, without those it has seen. -/
def unsatisfiedBlockers (items : List Mapping) (seen : List String) : List Value → List String
  | [] => []
  | raw :: rest =>
    let blocker := strOf raw
    if blocker ∈ seen then unsatisfiedBlockers items seen rest
    else if (items.find? fun item => idOf item = blocker).any isDoneReviewed then
      unsatisfiedBlockers items (blocker :: seen) rest
    else blocker :: unsatisfiedBlockers items (blocker :: seen) rest

/-- The blocker in a refusal of `_cmd_done`: what is shown, and whether it awaits review. -/
def blockerLabel (items : List Mapping) (blocker : String) : String × Bool :=
  let name := if blocker = "" then "''" else blocker
  if (items.find? fun item => idOf item = blocker).any fun item =>
      item.get? "done" = some (.bool true) && !isDoneReviewed item then
    (name ++ " (done but awaiting review)", true)
  else (name, false)

/-- `_done_guard_refusal_message`. -/
def doneGuardRefusalMessage (itemId : String) (live : List String) (items : List Mapping) : String :=
  let labels := live.map (blockerLabel items)
  let hint := if labels.any Prod.snd then "accept/review it, or --force"
    else "use --force to close anyway"
  itemId ++ ": blocked_by has unsatisfied blocker(s): " ++
    ", ".intercalate (labels.map Prod.fst) ++ "; " ++ hint

/-- What `_cmd_done` writes. -/
def writeDone (resolution : String) (st : Stamp) (item : Mapping) : Except TaskError Mapping :=
  let item := item.update [("done", boolValue true), ("done_at", textValue st.now),
    ("done_by", textValue st.actor)]
  let item := ((item.setDefault "closed_at" (textValue st.now)).setDefault "closed_by"
    (textValue st.actor)).set "resolution" (textValue resolution)
  appendAudit "done" st [("resolution", textValue resolution)] item

/-- `_cmd_done`. -/
def markDone (items : List Mapping) (force : Bool) (note resolution : String) (st : Stamp)
    (item : Mapping) : Except TaskError Mapping :=
  if item.get? "done" = some (.bool true) then
    .error (.taskError (idOf item ++ ": already done"))
  else do
    let blockers ← gatingBlockers item
    let live := unsatisfiedBlockers items [] blockers
    if live ≠ [] ∧ !force then .error (.taskError (doneGuardRefusalMessage (idOf item) live items))
    else (if note = "" then .ok item else appendNote note st item).bind (writeDone resolution st)

/-- A breadcrumb, appended to the dispatches of an item. -/
def appendBreadcrumb (crumb : Document) (action : String) (extra : List (String × Document))
    (st : Stamp) (item : Mapping) : Except TaskError Mapping := do
  let item ← pushTo "dispatches" crumb item
  appendAudit action st extra item

/-- The breadcrumb of a review. -/
def reviewCrumb (dispatch verdict findings : String) (st : Stamp) : Mapping :=
  setPresent
    (fun key =>
      if key = "dispatch_id" then textValue dispatch
      else if key = "role" then textValue "review"
      else if key = "verdict" then textValue verdict
      else if key = "findings_ref" then textValue findings
      else textValue st.now)
    ["dispatch_id", "role", "verdict", "findings_ref", "ts"] Mapping.empty

/-- The breadcrumb part of `_cmd_review`. -/
def logReview (dispatch verdict findings : String) (st : Stamp) :
    Mapping → Except TaskError Mapping :=
  appendBreadcrumb (reviewCrumb dispatch verdict findings st).document "review"
    [("dispatch_id", textValue dispatch), ("verdict", textValue verdict),
      ("findings_ref", textValue findings)] st

/-- The fields that `reopen_for_redispatch` removes. -/
def completionKeys : List String :=
  ["done_at", "done_by", "done_reviewed", "done_reviewed_at", "done_reviewed_by", "reviewed_by",
    "closed_at", "closed_by", "resolution", "accepted_review_dispatch_id",
    "accepted_review_findings_ref"]

/-- `reopen_for_redispatch`, of one item. -/
def reopen (dispatch reason : String) (st : Stamp) (item : Mapping) : Except TaskError Mapping :=
  if item.get? "done" = some (.bool true) ∨ item.get? "done_reviewed" = some (.bool true) then
    appendAudit "redispatch-reopen" st
      [("dispatch_id", textValue dispatch), ("reason", textValue reason)]
      (completionKeys.foldl Mapping.pop (item.set "done" (boolValue false)))
  else .ok item

/-- What `_cmd_accept` writes, for a review with these fields. -/
def markAccepted (dispatch findings : Document) (st : Stamp) (item : Mapping) :
    Except TaskError Mapping :=
  let item := item.update [("done", boolValue true), ("done_reviewed", boolValue true),
    ("done_reviewed_at", textValue st.now), ("done_reviewed_by", textValue st.actor),
    ("closed_at", textValue st.now), ("closed_by", textValue st.actor),
    ("accepted_review_dispatch_id", dispatch)]
  let item := if findings.1.truthy then item.set "accepted_review_findings_ref" findings else item
  appendAudit "accept" st [("review_dispatch_id", dispatch)] item

/-! ### Mutations -/

/-- An update of one item. -/
inductive ItemChange
  | mergeCapture (blockedBy links tags : List String) (values : String → Document)
  | block (on : List String)
  | unblock (remove : List String)
  | lane (lane : String)
  | promptPath (path : String)
  | blockedBy (blockers : List String)
  | note (text : String)
  | done (force : Bool) (note resolution : String)
  | breadcrumb (crumb : Document) (action : String) (extra : List (String × Document))
  | reopen (dispatch reason : String)
  | accept (dispatch findings : Document)

/-- A new item, or an update of one. -/
inductive Mutation
  | new (spec : ItemSpec) (values : String → Document) (captureKey : Option String)
  | harvest (spec : ItemSpec) (candidate : String → Document)
  | importItem (spec : ItemSpec) (importKey source draftId : String)
  | bug (spec : ItemSpec) (report : BugReport)
  | change (itemId : String) (change : ItemChange)

/-- The item after an update; `items` are those of the store. -/
def ItemChange.apply (items : List Mapping) (st : Stamp) :
    ItemChange → Mapping → Except TaskError Mapping
  | .mergeCapture blockers links tags values => Tasks.mergeCapture blockers links tags values st
  | .block on => Tasks.block on st
  | .unblock remove => Tasks.unblock remove st
  | .lane text => setLane text st
  | .promptPath path => setPromptPath path st
  | .blockedBy blockers => setBlockedBy blockers st
  | .note text => appendNote text st
  | .done force text resolution => markDone items force text resolution st
  | .breadcrumb crumb action extra => appendBreadcrumb crumb action extra st
  | .reopen dispatch reason => Tasks.reopen dispatch reason st
  | .accept dispatch findings => markAccepted dispatch findings st

/-- The items after a mutation. -/
def Mutation.apply (st : Stamp) (m : Mutation) (items : List Mapping) :
    Except TaskError (List Mapping) :=
  match m with
  | .new spec values captureKey => .ok (items ++ [newItem spec st values captureKey])
  | .harvest spec candidate => (harvestItem spec st candidate).map (items ++ [·])
  | .importItem spec importKey source draftId =>
    .ok (items ++ [Tasks.importItem spec st importKey source draftId])
  | .bug spec report => (bugItem spec st report).map (items ++ [·])
  | .change itemId c => updateItem itemId (c.apply items st) items

end GoalFlight.Tasks
