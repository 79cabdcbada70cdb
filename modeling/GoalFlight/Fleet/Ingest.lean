import GoalFlight.Fleet.Mirror
import GoalFlight.Tasks.Mutations

/-!
# Fleet: what is written over a mirror

Two things are: a status that was fetched and validated against the one that the mirror has, and a
verdict of the fleet's own, that the worker is dead, that its worktree is to be salvaged or that
the launch has failed.  A verdict takes the next number and says nothing of an epoch.
-/

namespace GoalFlight.Fleet

open Json
open GoalFlight.Capacity (given)
open GoalFlight.Tasks (strOf)

variable (isoSeconds : String → Option ℤ)

/-! ### A status from another node -/

/-- `_prepare_remote_content_for_dispatch`, of the JSON value of what was fetched; nothing, if it
is of another dispatch. -/
def prepareRemoteContentForDispatch (dispatchId : String) : Option Document → Option MirrorFile
  | none => some .garbled
  | some d =>
    match mapping? d with
    | none => some (.json d)
    | some payload =>
      if value payload "dispatch_id" = .null then
        some (.json (payload.set "dispatch_id" (textDocument dispatchId)).document)
      else if strOf (value payload "dispatch_id") = dispatchId then some (.json d)
      else none

/-- What `ingest_dispatch_mirror` makes of a status. -/
inductive Ingested
  | ingested (r : Reading)
  | unchanged
  | seqRegression
  | validationFailed
  | dispatchIdMismatch
  | raised

/-- What follows from the validation, against the last status. -/
def Ingested.ofValidation (last : Option Reading) : Except Refusal Reading → Ingested
  | .ok r => .ingested r
  | .error (.seqRegression seq epoch) =>
    if last.any fun last => seq = last.seq && epoch = last.epoch then .unchanged
    else .seqRegression
  | .error .raised => .raised
  | .error _ => .validationFailed

/-- **`ingest_dispatch_mirror`**, from what was fetched on. -/
def ingest (dispatchId : String) (file : MirrorFile) (content : Option Document) : Ingested :=
  match readStatusMirror isoSeconds file none with
  | .error .raised => .raised
  | last =>
    match prepareRemoteContentForDispatch dispatchId content with
    | none => .dispatchIdMismatch
    | some staging =>
      .ofValidation last.toOption (readStatusMirror isoSeconds staging last.toOption)

theorem ofValidation_eq_ingested_iff {last : Option Reading} {result : Except Refusal Reading}
    {r : Reading} : Ingested.ofValidation last result = .ingested r ↔ result = .ok r := by
  unfold Ingested.ofValidation
  split
  · simp
  · split <;> simp
  · simp
  · simp

/-! ### Verdicts -/

/-- The verdicts of the fleet. -/
inductive Verdict
  | workerDead
  | salvageNeeded (reason : String) (worktreePath porcelain porcelainError : Option String)
  | launchFailed (reason : String)

/-- The state of a verdict. -/
def Verdict.state : Verdict → String
  | .workerDead => "worker_dead"
  | .salvageNeeded .. => "salvage_needed"
  | .launchFailed _ => "failed"

/-- The reason of a verdict. -/
def Verdict.reason : Verdict → String
  | .workerDead => "remote_launch_pid_dead"
  | .salvageNeeded reason .. => reason
  | .launchFailed reason => reason

/-- `payload[key] = text`, if there is one. -/
def setGiven (m : Mapping) (key : String) (text : Option String) : Mapping :=
  (given text).elim m fun text => m.set key (textDocument text)

/-- The keys that a verdict takes over. -/
def copyKeys (m : Mapping) (prior : Option Reading) : Mapping :=
  prior.elim m fun prior =>
    ["agent", "tail_path", "worker_pid"].foldl (fun m key =>
      if (prior.payload.get? key).isSome then m.set key (prior.payload.field key) else m) m

/-- `int(prior.last_seq or 0) + 1`. -/
def nextSeq (prior : Option Reading) : ℤ := prior.elim 1 fun prior => prior.seq + 1

/-- What every verdict says. -/
def Verdict.head (dispatchId now : String) (prior : Option Reading) (v : Verdict) : Mapping :=
  Mapping.empty.set "schema" (textDocument statusMirrorSchema)
    |>.set "seq" (intDocument (nextSeq prior))
    |>.set "dispatch_id" (textDocument dispatchId)
    |>.set "state" (textDocument v.state)
    |>.set "reason" (textDocument v.reason)
    |>.set "updated_at" (textDocument now)

/-- What `_write_worker_dead_mirror`, `_write_salvage_needed_mirror` and
`_write_launch_failed_and_release` write. -/
def Verdict.payload (dispatchId now : String) (prior : Option Reading) (v : Verdict) : Mapping :=
  let m := v.head dispatchId now prior
  match v with
  | .workerDead => copyKeys m prior
  | .salvageNeeded _ worktreePath porcelain porcelainError =>
    let m := setGiven m "worktree_path" worktreePath
    let m := setGiven m "porcelain" porcelain
    let m := setGiven m "porcelain_error" porcelainError
    copyKeys m prior
  | .launchFailed _ => m

/-- A verdict is written over a mirror; if that cannot be read for an exception, it is not. -/
def writeVerdict (dispatchId now : String) (source : EpochSource) (file : MirrorFile)
    (v : Verdict) : Option MirrorFile :=
  match readStatusMirror isoSeconds file none with
  | .error .raised => none
  | prior => some (writeStatus file source (v.payload dispatchId now prior.toOption))

end GoalFlight.Fleet
