import GoalFlight.Library.JsonDynamic
import GoalFlight.Library.Machine
import GoalFlight.Library.Threads
import GoalFlight.Tasks.Numbers
import GoalFlight.Tasks.Recovery

/-!
# The commands that write the task store

Any number of processes run commands on one store.  A command is a script of instructions; the
processes take turns, one instruction at a time, and each may die in any of them, also between two
file operations of a publication.  Kernel locks go with the process.

`reserve_id` reads the counters and the store under the sequence lock alone, and writes its counter
before it hands the id out.  An import numbers its items under both locks, and writes the counters
after it has published.  The history has the generations that were published and the ids that were
handed out.
-/

namespace GoalFlight.Tasks

open Json Threads

/-! ### Commands -/

/-- A mutation of the items that keeps which items there are. -/
structure ItemEdit where
  edit : List Mapping → Except TaskError (List Mapping)
  ids : ∀ items edited, edit items = .ok edited → edited.map idOf = items.map idOf

/-- A record of an import. -/
structure ImportRecord where
  importKey : String
  family : Family
  /-- The fields of its item, of the loaded items and the allocated ids. -/
  fields : List Mapping → List String → Mapping

/-- One instruction. -/
inductive Instr
  /-- `_ensure_store_ready`. -/
  | ready
  | lockStore
  | unlockStore
  | lockSeq
  | unlockSeq
  /-- The publication of a legacy store. -/
  | migrate
  /-- `_recover_interrupted_publish_locked`. -/
  | recover
  /-- `_snapshot_last_good` and `load_items`. -/
  | load (requireValid : Bool)
  /-- The reads of `reserve_id`. -/
  | readNumber (f : Family)
  /-- Its write. -/
  | writeNumber
  /-- Appends an item with the reserved id; `strict` refuses an id that is there. -/
  | add (strict : Bool) (fields : List Mapping → Mapping)
  | edit (e : ItemEdit)
  /-- The `update` of an import. -/
  | allocate (records : List ImportRecord)
  /-- `save_items_atomic`. -/
  | publish
  /-- The counters of an import. -/
  | advance

/-- A program of instructions. -/
inductive Script
  | done
  | step (i : Instr) (rest : Script)
  | choose (test : List Mapping → Bool) (yes no : Script)

namespace Script

/-- `reserve_id`, once the store is ready. -/
def reserve (f : Family) (rest : Script) : Script :=
  .step .lockSeq (.step (.readNumber f) (.step .writeNumber (.step .unlockSeq rest)))

/-- What every mutation begins with. -/
def opening (requireValid : Bool) (rest : Script) : Script :=
  .step .lockStore (.step .recover (.step (.load requireValid) rest))

/-- What every mutation ends with. -/
def save : Script := .step .publish (.step .unlockStore .done)

end Script

/-- The item has the value under the key. -/
def hasKey (field key : String) (item : Mapping) : Bool := item.get? field = some (.str key)

/-- The item is not done. -/
def isOpen (item : Mapping) : Bool := !(item.get? "done").any Value.truthy

/-- The ids that the items of an import already have. -/
def importKeys (items : List Mapping) : List String :=
  items.filterMap fun item =>
    match item.get? "import_key" with
    | some (.str key) => if key = "" then none else some key
    | _ => none

/-- The records that get an item of their own. -/
def missingRecords (known : List String) : List ImportRecord → List ImportRecord
  | [] => []
  | record :: rest =>
    if record.importKey ∈ known then missingRecords known rest
    else record :: missingRecords (record.importKey :: known) rest

/-- An item that is minted if it is not there yet: a candidate of a harvest, or a bug of a
review. -/
structure Candidate where
  family : Family
  known : List Mapping → Bool
  fields : List Mapping → Mapping

/-- A bug of a review, by its `review_bug_key`. -/
def bugCandidate (bug : String × (List Mapping → Mapping)) : Candidate :=
  ⟨.b, fun items => items.any (hasKey "review_bug_key" bug.1), bug.2⟩

/-- The commands. -/
inductive Command
  | new (f : Family) (fields : List Mapping → Mapping)
  | capture (f : Family) (captureKey : String) (allowDuplicate : Bool) (merge : ItemEdit)
      (fields : List Mapping → Mapping)
  | review (crumb : ItemEdit) (bugs : List (String × (List Mapping → Mapping)))
  | harvest (candidates : List Candidate)
  | importItems (records : List ImportRecord) (collides : List Mapping → Bool)
  | mutate (requireValid : Bool) (e : ItemEdit)
  /-- A reader that recovers an interrupted publication. -/
  | read

/-- Reserves an id for each candidate that is not there, and appends it. -/
def mintMissing : List Candidate → Script → Script
  | [], rest => rest
  | c :: more, rest =>
    .choose c.known (mintMissing more rest)
      (.reserve c.family (.step (.add false c.fields) (mintMissing more rest)))

/-- A capture that is there already is merged into it, if that changes anything. -/
def mergeScript (merge : ItemEdit) : Script :=
  .choose (fun items => (merge.edit items).toOption = some items)
    (.step .unlockStore .done) (.step (.edit merge) .save)

/-- The script of a command. -/
def Command.script : Command → Script
  | .new f fields =>
    -- The id is reserved before the store is locked.
    .step .ready (.reserve f (.opening true (.step (.add true fields) .save)))
  | .capture f captureKey allowDuplicate merge fields =>
    .step .ready (.opening true (.choose
      (fun items => !allowDuplicate &&
        items.any fun item => isOpen item && hasKey "capture_key" captureKey item)
      (mergeScript merge)
      (.reserve f (.step (.add true fields) .save))))
  | .review crumb bugs =>
    .step .ready (.opening false (.step (.edit crumb)
      (mintMissing (bugs.map bugCandidate) .save)))
  | .harvest candidates => .step .ready (.opening false (mintMissing candidates .save))
  | .importItems records collides =>
    .step .ready (.opening true (.step .lockSeq (.choose collides .done
      (.step (.allocate records) (.step .publish (.step .advance
        (.step .unlockSeq (.step .unlockStore .done))))))))
  | .mutate requireValid e => .step .ready (.opening requireValid (.step (.edit e) .save))
  | .read => .step .lockStore (.step .recover (.step .unlockStore .done))

/-! ### The machine -/

/-- What the processes share, and its history. -/
structure Shared where
  store : Store
  /-- `.task-seq`. -/
  seq : Family → ℕ
  storeLock : Option ℕ
  seqLock : Option ℕ
  /-- The ids that were handed out, the last first. -/
  handed : List String
  /-- The generations of `tasks.jsonl`, the last first. -/
  generations : List (List Mapping)

/-- A process in its command. -/
structure Thread where
  script : Script
  items : List Mapping
  /-- The number that `reserve_id` is about to write. -/
  next : Option (Family × ℕ)
  /-- The id that it returned. -/
  minted : Option String
  /-- The ids that an import allocated and has not published. -/
  batch : List String
  /-- The families of an import. -/
  families : List Family

/-- A process between two commands. -/
def Thread.idle : Thread := ⟨.done, [], none, none, [], []⟩

/-- The store is no legacy store, or has been published. -/
def Shared.Ready (s : Shared) : Prop := (s.store.file .tasks).isSome = true ∨ s.store.legacy = []

instance (s : Shared) : Decidable s.Ready := inferInstanceAs (Decidable (_ ∨ _))

/-- The last generation. -/
def Shared.current (s : Shared) : List Mapping := s.generations.headD []

/-- Another generation is there, and with it the ids of a batch are out. -/
def Shared.record (s : Shared) (items : List Mapping) (batch : List String) : Shared :=
  { s with handed := batch ++ s.handed, generations := items :: s.generations }

/-- File operations that may put a generation of the items there. -/
def Shared.land (s : Shared) (items : List Mapping) (batch : List String) (ops : List FileOp) :
    Shared :=
  let store := s.store.applyAll ops
  if store.file .tasks = s.store.file .tasks then { s with store := store }
  else { s.record items batch with store := store }

/-- The locks of a process go with it. -/
def Shared.leave (s : Shared) (p : ℕ) : Shared :=
  { s with
    storeLock := if s.storeLock = some p then none else s.storeLock
    seqLock := if s.seqLock = some p then none else s.seqLock }

/-- `_preview_import_ids`, from the numbers that are taken. -/
def previewNumbers (taken : Family → ℕ) : List Family → List (Family × ℕ)
  | [] => []
  | f :: rest => (f, taken f + 1) :: previewNumbers (Function.update taken f (taken f + 1)) rest

variable (u : Digits) (recordSortTime : Mapping → ℤ)

/-- The numbers of a family that are taken. -/
def takenNumber (seq : Family → ℕ) (items : List Mapping) (f : Family) : Option ℕ :=
  (maxExistingSequence u f items).map (max (seq f))

/-- The numbers of these families. -/
def takenNumbers (seq : Family → ℕ) (items : List Mapping) (families : List Family) :
    Option (Family → ℕ) :=
  if ∀ f ∈ families, (takenNumber u seq items f).isSome then
    some fun f => (takenNumber u seq items f).getD 0
  else none

/-- What `load_items(recover_publish=False)` reads. -/
def Shared.loaded (s : Shared) (w : StoreEnv) : Option (List Mapping) :=
  (loadItems w false s.store).toOption.map Prod.fst

/-- The item of these fields under an id. -/
def withId (id : String) (fields : Mapping) : Mapping := fields.set "id" ⟨.str id, wellFormed_str id⟩

/-- The items of an import, and their ids. -/
def allocated (taken : Family → ℕ) (items : List Mapping) (missing : List ImportRecord) :
    List String × List Mapping :=
  let ids := (previewNumbers taken (missing.map ImportRecord.family)).map fun n => mintedId n.1 n.2
  (ids, List.zipWith (fun record id => withId id (record.fields items ids)) missing ids)

/-- What an instruction writes to the store: the items, and its file operations. -/
def Instr.writes (w : StoreEnv) (s : Shared) (t : Thread) :
    Instr → Option (List Mapping × List FileOp)
  | .migrate =>
    if s.Ready then none
    else
      ((readLegacyBestKnownGood recordSortTime s.store >>= fun best =>
        stageItems w (best.map Mapping.document)).toOption).map
        fun staged => (staged.1, publishOps w s.store staged.2 none)
  | .recover =>
    if s.store.marker then
      (recoverOps w s.store).toOption.map fun ops => ((s.loaded w).getD [], ops)
    else none
  | .publish => (stageItems w (t.items.map Mapping.document)).toOption.map
      fun staged => (staged.1, publishOps w s.store staged.2 none)
  | _ => none

/-- The instruction waits for a lock. -/
def Instr.waits (s : Shared) : Instr → Bool
  | .lockStore => s.storeLock.isSome
  | .lockSeq => s.seqLock.isSome
  | _ => false

/-- What an instruction does; nothing if it raises an error. -/
def Instr.perform (w : StoreEnv) (p : ℕ) (s : Shared) (t : Thread) : Instr → Option (Shared × Thread)
  | .ready =>
    if s.Ready then some (s, t)
    else some (s, { t with script := .step .lockStore (.step .migrate
      (.step .unlockStore t.script)) })
  | .lockStore => some ({ s with storeLock := some p }, t)
  | .unlockStore => some ({ s with storeLock := none }, t)
  | .lockSeq => some ({ s with seqLock := some p }, t)
  | .unlockSeq => some ({ s with seqLock := none }, t)
  | .migrate =>
    -- Another process may have migrated first.
    if s.Ready then some (s, t)
    else (Instr.writes recordSortTime w s t .migrate).map
      fun written => (s.land written.1 [] written.2, t)
  | .recover =>
    if s.store.marker then
      (Instr.writes recordSortTime w s t .recover).map
        fun written => (s.land written.1 [] written.2, t)
    else some (s, t)
  | .load requireValid => do
      let _ ← (snapshotLastGood w requireValid s.store).toOption
      let items ← s.loaded w
      return (s, { t with items := items })
  | .readNumber f => do
      let items ← s.loaded w
      let taken ← takenNumber u s.seq items f
      return (s, { t with next := some (f, taken + 1) })
  | .writeNumber => do
      let (f, n) ← t.next
      return ({ s with seq := Function.update s.seq f n, handed := mintedId f n :: s.handed },
        { t with next := none, minted := some (mintedId f n) })
  | .add strict fields => do
      let id ← t.minted
      if strict ∧ id ∈ t.items.map idOf then none
      else some (s, { t with minted := none, items := t.items ++ [withId id (fields t.items)] })
  | .edit e => do
      let items ← (e.edit t.items).toOption
      return (s, { t with items := items })
  | .allocate records => do
      let items ← s.loaded w
      let missing := missingRecords (importKeys t.items) records
      let families := missing.map ImportRecord.family
      let taken ← takenNumbers u s.seq items families
      let (batch, created) := allocated taken t.items missing
      return (s, { t with batch := batch, families := families, items := t.items ++ created })
  | .publish => (Instr.writes recordSortTime w s t .publish).map
      fun written => (s.land written.1 t.batch written.2,
        { t with items := written.1, batch := [] })
  | .advance =>
    if t.families = [] then some (s, t)
    else do
      let items ← s.loaded w
      let taken ← takenNumbers u s.seq items t.families
      return ({ s with seq := fun f => if f ∈ t.families then taken f else s.seq f }, t)

/-- One turn of a process.  A command that raises an error gives its locks back. -/
def Shared.turn (w : StoreEnv) (p : ℕ) (s : Shared) (t : Thread) : Shared × Thread :=
  match t.script with
  | .done => (s.leave p, .idle)
  | .choose test yes no => (s, { t with script := if test t.items then yes else no })
  | .step i rest =>
    if i.waits s then (s, t)
    else (i.perform u recordSortTime w p s { t with script := rest }).getD (s.leave p, .idle)

/-- A process dies; what it was writing has had so many of its file operations. -/
def Shared.crash (w : StoreEnv) (p k : ℕ) (s : Shared) (t : Thread) : Shared :=
  match t.script with
  | .step i _ =>
    match i.writes recordSortTime w s t with
    | none => s.leave p
    | some written => (s.land written.1 t.batch (written.2.take k)).leave p
  | _ => s.leave p

/-- What can happen. -/
inductive Event
  /-- A process that runs no command starts one. -/
  | start (p : ℕ) (c : Command)
  | go (p : ℕ) (w : StoreEnv)
  | die (p : ℕ) (w : StoreEnv) (k : ℕ)

/-- The processes and the store. -/
abbrev System := State Shared Thread

/-- One event. -/
def System.next (s : System) : Event → System
  | .start p c =>
    match (s.place p).script with
    | .done => s.turn p (s.shared.leave p, { Thread.idle with script := c.script })
    | _ => s
  | .go p w => s.turn p (s.shared.turn u recordSortTime w p (s.place p))
  | .die p w k => s.turn p (s.shared.crash recordSortTime w p k (s.place p), .idle)

/-- The items that a file holds. -/
def heldGenerations (file : Option Utf8.Bytes) : List (List Mapping) :=
  match file with
  | none => []
  | some data =>
    match parseJsonl "tasks.jsonl" (some data) with
    | .error _ => []
    | .ok (items, _) => [items]

/-- A store and its counters, and no process in a command. -/
def System.start (store : Store) (seq : Family → ℕ) : System where
  shared :=
    { store := store
      seq := seq
      storeLock := none
      seqLock := none
      handed := []
      generations := heldGenerations (store.file .tasks) }
  place _ := .idle

end GoalFlight.Tasks
