import GoalFlight.Library.Dictionary
import GoalFlight.Tasks.Minting
import GoalFlight.Tasks.Records
import Mathlib.Data.List.Sort

/-!
# Importing a sidecar

An agent writes its records to a file of its own, under draft ids, and `_cmd_import` turns
them into items.  The kind and the normalised title of a record are its content key.  Records
of one key become one item, and a key that an item of the store has is not imported again;
either way lane, tags, blockers and links have to be the same.  Blockers may be drafts, which
become the ids of the items that they resolve to.

The hash in a content key is kept as the text that is hashed.
-/

namespace GoalFlight.Tasks

open Json Utf8

/-! ### Records -/

/-- How a call fails. -/
inductive ImportError
  /-- The errors of the file are printed. -/
  | errors (messages : List String)
  | raised (e : TaskError)
  /-- A value that is no list, or is no key of a dictionary. -/
  | typeError
  /-- `int` refuses a digit. -/
  | valueError
deriving DecidableEq

/-- The error of a method of the store. -/
def raised {α : Type} (result : Except TaskError α) : Except ImportError α :=
  result.mapError .raised

/-- A record of the file that has an id, a kind and a title. -/
structure SidecarRecord where
  draftId : String
  kind : String
  title : String
  lane : String
  blockedBy : List String
  links : List String
  tags : List String
  line : ℕ
  importKey : String
deriving DecidableEq

/-- What the ids of drafts begin with. -/
def draftStart : List Char := "draft-".toList

/-- What content keys begin with. -/
def importStart : List Char := "import:".toList

/-- Runs of whitespace as one space; `inside` a run its space is there already. -/
def collapseSpaces (inside : Bool) : List Char → List Char
  | [] => []
  | c :: rest =>
    if Messages.isSpace c then
      if inside then collapseSpaces true rest else ' ' :: collapseSpaces true rest
    else c :: collapseSpaces false rest

/-- `_norm_key`, where `lower` is `str.lower`. -/
def normKey (lower : List Char → List Char) (title : String) : String :=
  String.ofList (collapseSpaces false (lower (strip title.toList)))

/-- `_import_content_key`. -/
def importContentKey (lower : List Char → List Char) (kind title : String) : String :=
  String.ofList (importStart ++ (kind ++ "\x1f" ++ normKey lower title).toList)

/-- `value == 1`. -/
def isOne : Value → Bool
  | .int n => n = 1
  | .bool b => b
  | .float t => Value.FloatText.isInteger t && Value.FloatText.truncate t = 1
  | _ => false

/-- The kinds of `FAMILY_PREFIX_BY_KIND`. -/
def importKinds : List String := ["task", "bug", "decision"]

/-- `FAMILY_PREFIX_BY_KIND`, of a kind that it has. -/
def familyOfKind (kind : String) : Family :=
  if kind = "task" then .t else if kind = "bug" then .b else .d

/-- `ITEM_ID_RE.fullmatch`. -/
def isItemIdText (u : Digits) (text : String) : Bool :=
  let family := text.toList.takeWhile (· ≠ '-')
  let number := text.toList.drop (family.length + 1)
  String.ofList (family.map Char.toLower) ∈ ["adr", "bp", "t", "b", "q", "d"] &&
    number ≠ [] && number.all fun c => (u.decimal? c).isSome

/-- The texts of an array of strings. -/
def textsOf? : Value → Option (List String)
  | .arr xs => if xs.all isStr then some (xs.map strOf) else none
  | _ => none

/-! ### Reading the file -/

/-- What is wrong with a draft id; `seen` has the lines of those before. -/
def draftErrors (u : Digits) (label : String) (seen : List (String × ℕ)) :
    Option Value → List String
  | some (.str id) =>
    if draftStart <+: id.toList ∧ id ≠ "draft-" then
      match Dictionary.get? seen id with
      | some first => [label ++ ": duplicate draft id '" ++ id ++ "' (first seen on line " ++
          toString first ++ ")"]
      | none => []
    else if isItemIdText u id then
      [label ++ ": id '" ++ id ++ "' looks like a real store id; expected draft-<anything>"]
    else [label ++ ": id must be draft-<anything>"]
  | _ => [label ++ ": id must be draft-<anything>"]

/-- The line of a new draft. -/
def noteDraft (lineno : ℕ) (seen : List (String × ℕ)) : Option Value → List (String × ℕ)
  | some (.str id) =>
    if draftStart <+: id.toList ∧ id ≠ "draft-" ∧ (Dictionary.get? seen id).isNone then
      seen ++ [(id, lineno)]
    else seen
  | _ => seen

/-- The value is a text that is not blank. -/
def isNonblank : Value → Bool
  | .str s => strip s.toList ≠ []
  | _ => false

/-- What is wrong with the other fields of a record. -/
def fieldErrors (label : String) (record : Mapping) : List String :=
  (if ((record.get? "schema_version").any isOne) then [] else
    [label ++ ": schema_version must be 1"]) ++
  (if (record.get? "kind").any fun v => importKinds.any fun kind => v = .str kind then [] else
    [label ++ ": kind must be task, bug, or decision"]) ++
  (if (record.get? "title").any isNonblank then [] else
    [label ++ ": title must be a non-empty string"]) ++
  (if isNonblank ((record.get? "lane").getD (.str "deferred")) then [] else
    [label ++ ": lane must be a non-empty string"]) ++
  ["blocked_by", "links", "tags"].flatMap fun field =>
    if (textsOf? ((record.get? field).getD (.arr []))).isSome then [] else
      [label ++ ": " ++ field ++ " must be an array of strings"]

/-- A kind that is no key of a dictionary. -/
def isUnhashable : Option Value → Bool
  | some (.arr _) | some (.obj _) => true
  | _ => false

/-- The record of an object, if it has an id, a kind and a title. -/
def sidecarRecord? (lower : List Char → List Char) (lineno : ℕ) (record : Mapping) :
    Option SidecarRecord :=
  let texts field := ((record.get? field).bind textsOf?).getD []
  match record.get? "id", record.get? "kind", record.get? "title" with
  | some (.str draftId), some (.str kind), some (.str title) =>
    if draftStart <+: draftId.toList then
      some
        { draftId := draftId
          kind := kind
          title := String.ofList (strip title.toList)
          lane := strOf ((record.get? "lane").getD (.str "deferred"))
          blockedBy := texts "blocked_by"
          links := texts "links"
          tags := texts "tags"
          line := lineno
          importKey := importContentKey lower kind title }
    else none
  | _, _, _ => none

/-- What a call finds outside the store and the file. -/
structure ImportEnv where
  store : StoreEnv
  recordSortTime : Mapping → ℤ
  digits : Digits
  /-- `str.lower`. -/
  lower : List Char → List Char

variable (e : ImportEnv)

/-- One line: its record, its errors, and the drafts there are after it. -/
def readSidecarLine (lineno : ℕ) (seen : List (String × ℕ)) (raw : List Char) :
    Except ImportError (Option SidecarRecord × List String × List (String × ℕ)) :=
  let label := "line " ++ toString lineno
  if raw.all Messages.isSpace then .ok (none, [], seen)
  else
    match loadsDocument raw with
    | none => .ok (none, [label ++ ": invalid JSON"], seen)
    | some v =>
      match mapping? v with
      | none => .ok (none, [label ++ ": expected a JSON object"], seen)
      | some record =>
        if isUnhashable (record.get? "kind") then .error .typeError
        else .ok (sidecarRecord? e.lower lineno record,
          draftErrors e.digits label seen (record.get? "id") ++ fieldErrors label record,
          noteDraft lineno seen (record.get? "id"))

/-- The lines from a number on. -/
def readSidecarLines (lineno : ℕ) (seen : List (String × ℕ)) :
    List (List Char) → Except ImportError (List SidecarRecord × List String)
  | [] => .ok ([], [])
  | raw :: rest => do
      let (record, errors, seen) ← readSidecarLine e lineno seen raw
      let (records, more) ← readSidecarLines (lineno + 1) seen rest
      return (record.toList ++ records, errors ++ more)

/-- `_read_import_records`: the records, and what is wrong with them. -/
def readImportRecords (sidecar : Bytes) : Except ImportError (List SidecarRecord × List String) :=
  match readText sidecar with
  | none => .error (.raised .unicodeDecodeError)
  | some text => readSidecarLines e 1 [] (strBreaks.lines text)

/-! ### Content -/

/-- `sorted(texts)`. -/
def sortTexts (texts : List String) : List String := texts.insertionSort (· ≤ ·)

/-- What has to be the same under one content key. -/
structure Signature where
  lane : String
  tags : List String
  blockers : List String
  links : List String
deriving DecidableEq

/-- `_import_content_signature` of texts without repetitions. -/
def contentSignature (keyOf : String → String) (lane : String) (tags blockedBy links : List String) :
    Signature :=
  ⟨lane, sortTexts tags, sortTexts (blockedBy.map keyOf), sortTexts links⟩

/-- `_import_content_signature` of a record. -/
def SidecarRecord.signature (keyOf : String → String) (r : SidecarRecord) : Signature :=
  contentSignature keyOf r.lane (dedupeTexts r.tags) (dedupeTexts r.blockedBy) (dedupeTexts r.links)

/-- What `for value in values or []` runs through, where it runs. -/
def iterated? : Value → Option (List Value)
  | .arr xs => some xs
  | .str s => some (s.toList.map fun c => .str (String.ofList [c]))
  | .obj fields => some (fields.map fun field => .str field.1)
  | v => if v.truthy then none else some []

/-- `_dedupe_strs` of a field of an item. -/
def dedupedField? (item : Mapping) (key : String) : Option (List String) :=
  (iterated? ((item.get? key).getD (.arr []))).map (dedupeStrs [])

/-- `_import_content_signature` of an item. -/
def itemSignature? (keyOf : String → String) (item : Mapping) : Option Signature := do
  let tags ← dedupedField? item "tags"
  let blockedBy ← dedupedField? item "blocked_by"
  let links ← dedupedField? item "links"
  return contentSignature keyOf (strOf ((item.get? "lane").getD (.str "deferred"))) tags blockedBy
    links

/-- The content key of an item that was imported. -/
def importKey? (item : Mapping) : Option String :=
  match item.get? "import_key" with
  | some (.str key) => if key = "" then none else some key
  | _ => none

/-- `existing_key_by_id`. -/
def existingKeyById (items : List Mapping) : List (String × String) :=
  items.filterMap fun item => (importKey? item).map fun key => (idOf item, key)

/-- `existing_by_key` and `live_by_key`. -/
def existingByKey (items : List Mapping) : List (String × Mapping) :=
  items.filterMap fun item => (importKey? item).map fun key => (key, item)

/-- `live_keys`. -/
def liveKeys (items : List Mapping) : List (String × String) :=
  items.filterMap fun item => (importKey? item).map fun key => (key, idOf item)

/-- `draft_key_by_id`. -/
def draftKeyById (records : List SidecarRecord) : List (String × String) :=
  records.map fun r => (r.draftId, r.importKey)

/-- `blocker_keys`. -/
def blockerKeys (records : List SidecarRecord) (items : List Mapping) : List (String × String) :=
  existingKeyById items ++ draftKeyById records

/-- `live_blocker_keys`. -/
def liveBlockerKeys (records : List SidecarRecord) (items : List Mapping) : List (String × String) :=
  ((Dictionary.items (existingByKey items)).map fun entry => (idOf entry.2, entry.1)) ++
    draftKeyById records

/-- `keys.get(ref, ref)`. -/
def keyIn (keys : List (String × String)) (ref : String) : String :=
  (Dictionary.get? keys ref).getD ref

/-! ### What is wrong with the records -/

/-- `draft_ids`. -/
def draftIds (records : List SidecarRecord) : List String := records.map SidecarRecord.draftId

/-- `unknown_refs`. -/
def unknownRefs (records : List SidecarRecord) (items : List Mapping) : List String :=
  sortTexts ((records.flatMap SidecarRecord.blockedBy).filter fun ref =>
    ref ∉ draftIds records ∧ ref ∉ items.map idOf).eraseDups

/-- `self_refs`. -/
def selfRefs (keyOf : String → String) (records : List SidecarRecord) : List String :=
  sortTexts ((records.filter fun r => r.blockedBy.any fun ref => keyOf ref = r.importKey).map
    SidecarRecord.draftId).eraseDups

/-- `draft_edges`. -/
def draftEdges (records : List SidecarRecord) : List (String × List String) :=
  Dictionary.items (records.map fun r =>
    (r.draftId, r.blockedBy.filter fun ref => ref ∈ draftIds records ∧ ref ≠ r.draftId))

/-- What `find_cycle` has found. -/
structure CycleSearch where
  visited : List String
  cycle : Option (List String)

/-- `find_cycle`; `path` has the drafts that are being visited. -/
def findCycle (edges : List (String × List String)) :
    ℕ → List String → String → CycleSearch → Option CycleSearch
  | 0, _, _, _ => none
  | fuel + 1, path, draftId, found =>
    if found.cycle.isSome ∨ draftId ∈ found.visited then some found
    else if draftId ∈ path then
      some { found with cycle := some (path.dropWhile (· ≠ draftId) ++ [draftId]) }
    else do
      let found ← ((Dictionary.get? edges draftId).getD []).foldlM
        (fun found blocker => findCycle edges fuel (path ++ [draftId]) blocker found) found
      return { found with visited := draftId :: found.visited }

/-- The search from every draft. -/
def searchCycle (edges : List (String × List String)) : Option CycleSearch :=
  (edges.map Prod.fst).foldlM
    (fun found draftId => findCycle edges (edges.length + 1) [] draftId found) ⟨[], none⟩

/-- The errors of cycles among drafts. -/
def cycleErrors (records : List SidecarRecord) : List String :=
  match (searchCycle (draftEdges records)).bind CycleSearch.cycle with
  | none => []
  | some cycle => ["dependency cycle among draft ids: " ++ " -> ".intercalate cycle]

/-- The text of a collision. -/
def collisionText (record : SidecarRecord) (other : String) : String :=
  "import content collision: " ++ record.draftId ++ " (line " ++ toString record.line ++ ") and " ++
    other ++ " share kind/title but differ in lane, tags, blocked_by, or links"

/-- The collisions among the records of a key. -/
def groupCollisions (keyOf : String → String) : List SidecarRecord → List String
  | [] => []
  | first :: others =>
    (others.filter fun other => other.signature keyOf ≠ first.signature keyOf).map fun other =>
      collisionText first (other.draftId ++ " (line " ++ toString other.line ++ ")")

/-- The collisions of records with one another. -/
def recordCollisions (keyOf : String → String) (records : List SidecarRecord) : List String :=
  (records.map SidecarRecord.importKey).eraseDups.flatMap fun key =>
    groupCollisions keyOf (records.filter fun r => r.importKey = key)

/-- The collision of a record with the item that has its key. -/
def collisionOf (keyOf : String → String) (byKey : List (String × Mapping)) (r : SidecarRecord) :
    Except ImportError (Option String) :=
  match Dictionary.get? byKey r.importKey with
  | none => .ok none
  | some item =>
    match itemSignature? keyOf item with
    | none => .error .typeError
    | some signature =>
      .ok (if r.signature keyOf = signature then none
        else some (collisionText r ("existing item " ++ idOf item)))

/-- The errors of `_cmd_import`, behind those of the file. -/
def importErrors (records : List SidecarRecord) (items : List Mapping) (readErrors : List String) :
    Except ImportError (List String) := do
  let keyOf := keyIn (blockerKeys records items)
  let unknown := unknownRefs records items
  let selves := selfRefs keyOf records
  let collisions ← records.mapM (collisionOf keyOf (existingByKey items))
  return readErrors ++
    (if unknown = [] then [] else
      ["unknown blocked_by reference(s): " ++ ", ".intercalate unknown]) ++
    (if selves = [] then [] else ["self blocked_by reference(s): " ++ ", ".intercalate selves]) ++
    cycleErrors records ++ recordCollisions keyOf records ++ collisions.reduceOption

/-! ### The items of an import -/

/-- The collisions that the update still looks for. -/
def checkLive (keyOf : String → String) (byKey : List (String × Mapping)) :
    List SidecarRecord → Except ImportError Unit
  | [] => .ok ()
  | r :: rest => do
      match ← collisionOf keyOf byKey r with
      | none => checkLive keyOf byKey rest
      | some message => .error (.raised (.taskError message))

/-- `created_records`: the first record of each key that is not known. -/
def createdRecords (known : List String) : List SidecarRecord → List SidecarRecord
  | [] => []
  | r :: rest =>
    if r.importKey ∈ known then createdRecords known rest
    else r :: createdRecords (r.importKey :: known) rest

/-- What an import prints. -/
structure ImportSummary where
  imported : ℕ
  skippedDuplicates : ℕ
  idMapping : List (String × String)

/-- A call: the path of the file, the time and the actor. -/
structure ImportCall where
  source : String
  stamp : Stamp

/-- The item of a record under an id. -/
def recordItem (c : ImportCall) (mapping : List (String × String)) (r : SidecarRecord)
    (itemId : String) : Mapping :=
  importItem
    { itemId := itemId
      kind := r.kind
      title := r.title
      blockedBy := r.blockedBy.map (keyIn mapping)
      links := r.links
      tags := r.tags
      lane := some r.lane }
    c.stamp r.importKey c.source r.draftId

/-- The ids that `_preview_import_ids` allocates. -/
def previewImportIds (seq : Family → ℕ) (items : List Mapping) (families : List Family) :
    Option (List String) :=
  (takenNumbers e.digits seq items families).map fun taken =>
    (previewNumbers taken families).map fun n => mintedId n.1 n.2

/-- The created records of an import into these items. -/
def createdOf (items : List Mapping) (records : List SidecarRecord) : List SidecarRecord :=
  createdRecords ((liveKeys items).map Prod.fst) records

/-- `key_to_id`. -/
def keyToId (items : List Mapping) (created : List SidecarRecord) (allocated : List String) :
    List (String × String) :=
  liveKeys items ++ (created.map SidecarRecord.importKey).zip allocated

/-- `mapping`. -/
def idMapping (keyToId : List (String × String)) (records : List SidecarRecord) :
    List (String × String) :=
  records.map fun r => (r.draftId, (Dictionary.get? keyToId r.importKey).getD "")

/-- What an update has made. -/
structure ImportUpdate where
  summary : ImportSummary
  reservedFamilies : List Family
  items : List Mapping

/-- The `update` of `_cmd_import`. -/
def importUpdate (c : ImportCall) (records : List SidecarRecord) (seq : Family → ℕ)
    (items : List Mapping) : Except ImportError ImportUpdate := do
  checkLive (keyIn (liveBlockerKeys records items)) (existingByKey items) records
  let created := createdOf items records
  let families := created.map fun r => familyOfKind r.kind
  match previewImportIds e seq items families with
  | none => .error .valueError
  | some allocated =>
    let mapping := idMapping (keyToId items created allocated) records
    return {
      summary :=
        { imported := created.length
          skippedDuplicates := records.length - created.length
          idMapping := mapping }
      reservedFamilies := families
      items := items ++ List.zipWith (recordItem c mapping) created allocated }

/-! ### The command -/

/-- The store and its counters. -/
structure TaskState where
  store : Store
  /-- `.task-seq`. -/
  seq : Family → ℕ

/-- What a mutation finds under the lock: the items, and the store. -/
def openStore (s : Store) : Except TaskError (List Mapping × Store) := do
  let s ← mutateRecover e.recordSortTime e.store s
  snapshotLastGood e.store true s
  loadItems e.store false s

/-- The counters after a publication; nothing is read where no id was reserved. -/
def advanceSeq (families : List Family) (s : TaskState) : Except ImportError (Family → ℕ) :=
  if families = [] then .ok s.seq
  else do
    let (items, _) ← raised (loadItems e.store false s.store)
    match takenNumbers e.digits s.seq items families with
    | none => .error .valueError
    | some taken => return fun f => if f ∈ families then taken f else s.seq f

/-- What `_cmd_import` does under the locks. -/
def publishImport (c : ImportCall) (records : List SidecarRecord) (s : TaskState) :
    Except ImportError (ImportSummary × TaskState) := do
  let (items, store) ← raised (openStore e s.store)
  let update ← importUpdate e c records s.seq items
  let (_, store) ← raised (saveItemsAtomic e.store store (update.items.map Mapping.document))
  let seq ← advanceSeq e update.reservedFamilies ⟨store, s.seq⟩
  return (update.summary, ⟨store, seq⟩)

/-- `_cmd_import` of the bytes of a file. -/
def cmdImport (sidecar : Bytes) (c : ImportCall) (s : TaskState) :
    Except ImportError (ImportSummary × TaskState) := do
  let (records, readErrors) ← readImportRecords e sidecar
  let (items, store) ← raised (loadItems e.store true s.store)
  match ← importErrors records items readErrors with
  | [] => publishImport e c records { s with store := store }
  | errors => .error (.errors errors)

end GoalFlight.Tasks
