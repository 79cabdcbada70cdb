import GoalFlight.Library.Scripts
import GoalFlight.Dispatch.Carriers
import Mathlib.Data.List.AList

/-!
# Dispatch: the files of the queue and the ledger

What the passes over one queue share is on disk: the queue directory with its envelopes,
claims and failed claims, the quarantine beside it, the ledger with one row a dispatch, and
the journal, of which only the finished attempts count here.

Every file is replaced, renamed or unlinked whole.
-/

namespace GoalFlight.Dispatch

open Json

/-! ### Files -/

/-- A claim of an envelope: `<stem>.json.claimed-<tag>`. -/
structure ClaimPath where
  stem : String
  tag : String
deriving DecidableEq

/-- A path in the queue directory. -/
inductive QueuePath
  | envelope (stem : String)
  | claim (c : ClaimPath)
  | failed (c : ClaimPath)
deriving DecidableEq

/-- The file as the carrier index lists it. -/
def QueuePath.toFile (p : QueuePath) (content : QueueFileContent) : QueueFile :=
  match p with
  | .envelope stem => ⟨stem ++ ".json", .envelope stem, content⟩
  | .claim c => ⟨c.stem ++ ".json.claimed-" ++ c.tag, .claim c.stem, content⟩
  | .failed c => ⟨c.stem ++ ".json.claimed-" ++ c.tag ++ ".failed", .other, content⟩

/-- A path in the quarantine: of the claim, with a suffix where that one is taken. -/
structure QuarantinePath where
  claim : ClaimPath
  suffix : String := ""
deriving DecidableEq

/-- A quarantined claim and the reason it is there for. -/
structure QuarantinedClaim where
  entry : QueueEntry
  reason : String
deriving DecidableEq

/-- What the passes share. -/
structure Disk where
  queue : AList fun _ : QueuePath => QueueFileContent
  quarantine : AList fun _ : QuarantinePath => QuarantinedClaim
  /-- The ledger; a row that does not read is an unreadable one. -/
  rows : AList fun _ : String => LedgerRow
  keyed : ∀ {id r}, rows.lookup id = some r → r.dispatchId = id
  /-- The dispatches whose journal attempt is final. -/
  finals : List String

namespace Disk

/-- A disk without files, rows and attempts. -/
def empty : Disk where
  queue := ∅
  quarantine := ∅
  rows := ∅
  keyed := by
    intro id r hr
    cases hr
  finals := []

/-- The file at a path. -/
def file (d : Disk) (p : QueuePath) : Option QueueFileContent := d.queue.lookup p

/-- `_find_dispatch_record`. -/
def findRecord (d : Disk) (id : String) : Option LedgerRow :=
  if id = "" then none else d.rows.lookup id

/-- The queue directory as it is listed. -/
def listing (d : Disk) : QueueListing :=
  .files (d.queue.entries.map fun entry => entry.1.toFile entry.2)

end Disk

/-! ### Writes -/

/-- A write that happens whole or not at all. -/
inductive DiskWrite
  | put (p : QueuePath) (e : QueueEntry)
  | unlink (p : QueuePath)
  /-- `path.rename(claim)`. -/
  | claim (c : ClaimPath)
  | quarantine (dest : QuarantinePath) (q : QuarantinedClaim)
  /-- `goalflight_ledger.write_record`. -/
  | putRow (r : LedgerRow)
  /-- `commit_terminal_authority`: the journal attempt becomes final. -/
  | finish (id : String)
deriving DecidableEq

/-- The end of an attempt that is on disk stays. -/
def LedgerRow.keepingEnd (r : LedgerRow) (old : Option LedgerRow) : LedgerRow :=
  match old.filter fun o => o.endedAt.given with
  | some o => { r with endedAt := o.endedAt }
  | none => r

@[simp] theorem LedgerRow.dispatchId_keepingEnd (r : LedgerRow) (old : Option LedgerRow) :
    (r.keepingEnd old).dispatchId = r.dispatchId := by
  unfold LedgerRow.keepingEnd
  split <;> rfl

theorem keyed_insert {rows : AList fun _ : String => LedgerRow}
    (hkeyed : ∀ {id r}, rows.lookup id = some r → r.dispatchId = id) (r : LedgerRow) :
    ∀ {id r'}, (rows.insert r.dispatchId r).lookup id = some r' → r'.dispatchId = id := by
  intro id r' hr'
  by_cases hid : id = r.dispatchId
  · subst hid
    rw [AList.lookup_insert] at hr'
    rw [Option.some.inj hr']
  · rw [AList.lookup_insert_ne hid] at hr'
    exact hkeyed hr'

/-- A write, done. -/
def Disk.write (d : Disk) : DiskWrite → Disk
  | .put p e => { d with queue := d.queue.insert p (.entry e) }
  | .unlink p => { d with queue := d.queue.erase p }
  | .claim c =>
    match d.queue.lookup (.envelope c.stem) with
    | some content =>
      { d with queue := (d.queue.erase (.envelope c.stem)).insert (.claim c) content }
    | none => d
  | .quarantine dest q => { d with quarantine := d.quarantine.insert dest q }
  | .putRow r =>
    let landed := r.keepingEnd (d.rows.lookup r.dispatchId)
    { d with
      rows := d.rows.insert landed.dispatchId landed
      keyed := keyed_insert d.keyed landed }
  | .finish id => { d with finals := id :: d.finals }

/-- The disk after a script. -/
abbrev Disk.after (d : Disk) (script : List DiskWrite) : Disk := Machine.run Disk.write d script

section Lemmas

variable (d : Disk) (p p' : QueuePath) (e : QueueEntry) (c : ClaimPath) (r : LedgerRow)
  (dest : QuarantinePath) (q : QuarantinedClaim) (id : String)

@[simp] theorem Disk.findRecord_claim : (d.write (.claim c)).findRecord id = d.findRecord id := by
  have hrows : (d.write (.claim c)).rows = d.rows := by
    unfold Disk.write
    dsimp only
    split <;> rfl
  unfold Disk.findRecord
  rw [hrows]

theorem Disk.findRecord_putRow_self {r : LedgerRow} (hid : r.dispatchId ≠ "") :
    (d.write (.putRow r)).findRecord r.dispatchId =
      some (r.keepingEnd (d.findRecord r.dispatchId)) := by
  have hrow : d.findRecord r.dispatchId = d.rows.lookup r.dispatchId := if_neg hid
  rw [hrow]
  show (if r.dispatchId = "" then none else
    (d.rows.insert (r.keepingEnd (d.rows.lookup r.dispatchId)).dispatchId
      (r.keepingEnd (d.rows.lookup r.dispatchId))).lookup r.dispatchId) = _
  rw [if_neg hid, LedgerRow.dispatchId_keepingEnd, AList.lookup_insert]

theorem Disk.findRecord_putRow_of_ne {r : LedgerRow} {id : String} (hne : id ≠ r.dispatchId) :
    (d.write (.putRow r)).findRecord id = d.findRecord id := by
  show (if id = "" then none else
    (d.rows.insert (r.keepingEnd (d.rows.lookup r.dispatchId)).dispatchId
      (r.keepingEnd (d.rows.lookup r.dispatchId))).lookup id) = _
  rw [LedgerRow.dispatchId_keepingEnd, AList.lookup_insert_ne hne]
  rfl

end Lemmas

theorem Disk.dispatchId_of_findRecord {d : Disk} {id : String} {r : LedgerRow}
    (h : d.findRecord id = some r) : r.dispatchId = id ∧ id ≠ "" := by
  unfold Disk.findRecord at h
  split at h
  · cases h
  · rename_i hid
    exact ⟨d.keyed h, hid⟩

end GoalFlight.Dispatch
