import GoalFlight.Dispatch.Documents
import GoalFlight.Output.Data

/-!
# Fleet: status mirrors

A worker on another node writes its status to a file there, and the fleet keeps a copy, the
mirror.  A status comes in one of two schemas, and its place in the order of all of them is
reconstructed from it: from its `seq`, or from its `events_seen`, or from its `updated_at`, in its
`epoch`; and a worker from before the epochs is told from its successor by its pid and its start.
-/

namespace GoalFlight.Fleet

open Json
open GoalFlight.Capacity (terminalStates limitTerminalStates terminalStateFor)
open GoalFlight.Dispatch (normalizeDispatchState textOf)
open Output (redactMapping)

/-! ### Values -/

/-- A text as a value. -/
def textDocument (s : String) : Document := ⟨.str s, wellFormed_str s⟩

/-- A number as a value. -/
def intDocument (n : ℤ) : Document := ⟨.int n, wellFormed_int n⟩

/-- `payload.get(key)`. -/
def value (m : Mapping) (key : String) : Value := (m.get? key).getD .null

/-- `text.strip()`. -/
def strip (s : String) : String := String.ofList (Watch.strip s.toList)

/-- `int(text.strip())`, where that is digits only. -/
def stripDigits? (s : String) : Option ℤ :=
  let stripped := Watch.strip s.toList
  if stripped ≠ [] ∧ stripped.all Char.isDigit then some (Value.digitsValue stripped) else none

/-- `_coerce_seq`, also where it is asked for a pid. -/
def coerceSeq : Value → Option ℤ
  | .int n => some n
  | .str s => stripDigits? s
  | _ => none

/-- An epoch: a number or a text. -/
inductive Epoch
  | number (n : ℤ)
  | text (s : String)
deriving DecidableEq

/-- `LEGACY_EPOCH`. -/
def legacyEpoch : Epoch := .number 0

/-- An epoch as a value. -/
def Epoch.document : Epoch → Document
  | .number n => intDocument n
  | .text s => textDocument s

/-- `_coerce_epoch`. -/
def coerceEpoch : Value → Option Epoch
  | .null => some legacyEpoch
  | .int n => some (.number n)
  | .float t => if Value.FloatText.isInteger t then some (.number (Value.FloatText.truncate t)) else none
  | .str s => if strip s ≠ "" then some (.text (strip s)) else none
  | _ => none

/-- Why a mirror is not read. -/
inductive Refusal
  | missingFile
  | partialJson
  | schemaMismatch
  /-- Not behind the last one: its number and epoch. -/
  | seqRegression (seq : ℤ) (epoch : Epoch)
  /-- A value that the code cannot handle: an exception. -/
  | raised

/-- `_coerce_updated_at`; `isoSeconds` is the timestamp of a text that `fromisoformat` reads. -/
def coerceUpdatedAt (isoSeconds : String → Option ℤ) : Value → Except Refusal (Option ℤ)
  | .int n => .ok (some n)
  | .float t => .ok (some (Value.FloatText.truncate t))
  | .nonFinite _ => .error .raised
  | .str s => .ok ((stripDigits? s).or (isoSeconds (strip s)))
  | _ => .ok none

/-- `STATE_SEQ_RANKS.get(state, 50)`. -/
def runningRank (state : String) : ℤ :=
  if state = "waiting" then 10
  else if state = "starting" then 20
  else if state = "running" then 30
  else if state = "running_quiet" then 40
  else 50

/-- `state_seq_rank`. -/
def stateSeqRank : Value → ℤ
  | .str state =>
    if state = "watcher_stopped" then 45
    else if state = "controller_dead" ∨ state ∈ terminalStates then 90
    else
      match normalizeDispatchState state with
      | none => 0
      | some normalized => if normalized ∈ terminalStates then 90 else runningRank normalized
  | _ => 0

/-- `_synthesized_seq`: the number of a status, on one of three scales. -/
def synthesizedSeq (isoSeconds : String → Option ℤ) (m : Mapping) : Except Refusal (Option ℤ) :=
  match coerceSeq (value m "seq") with
  | some seq => .ok (some seq)
  | none =>
    match coerceSeq (value m "events_seen") with
    | some eventsSeen => .ok (some (eventsSeen * 100 + stateSeqRank (value m "state")))
    | none => do
        let updatedAt ← coerceUpdatedAt isoSeconds (value m "updated_at")
        return updatedAt.map fun updatedAt => updatedAt * 100 + stateSeqRank (value m "state")

/-! ### The worker's birth -/

/-- Which worker wrote a status: its pid, and when it was started. -/
structure LineageIdentity where
  workerPid : ℤ
  workerStartTime : Option String

/-- `_first_non_empty_string`. -/
def firstNonEmptyString (values : List Value) : Option String :=
  values.findSome? fun
    | .str s => if strip s ≠ "" then some (strip s) else none
    | _ => none

/-- `_lineage_identity_for`. -/
def lineageIdentityFor (m : Mapping) : Option LineageIdentity :=
  let worker := value m "worker_identity"
  let expected := value m "expected_worker_identity"
  let pid := (coerceSeq (value m "worker_pid")).or ((coerceSeq (value m "pid")).or
    ((coerceSeq (worker.get "pid")).or (coerceSeq (expected.get "pid"))))
  pid.map fun pid => {
    workerPid := pid
    workerStartTime := firstNonEmptyString [
      value m "worker_start_time", value m "worker_lstart", value m "process_start_time",
      value m "lstart", worker.get "lstart", worker.get "start_time", worker.get "started_at",
      expected.get "lstart", expected.get "start_time", expected.get "started_at"] }

/-- `_lineage_identity_changed`. -/
def lineageIdentityChanged : Option LineageIdentity → Option LineageIdentity → Bool
  | some incoming, some previous =>
    incoming.workerPid ≠ previous.workerPid ||
      match incoming.workerStartTime, previous.workerStartTime with
      | some a, some b => a ≠ b
      | _, _ => false
  | _, _ => false

/-! ### Normalization -/

/-- A status that was read: `MirrorReadResult`. -/
structure Reading where
  payload : Mapping
  seq : ℤ
  epoch : Epoch
  lineageIdentity : Option LineageIdentity

/-- `STATUS_MIRROR_SCHEMA`. -/
def statusMirrorSchema : String := "goalflight.acp-run.v1"

/-- `DISPATCH_STATUS_SCHEMA`. -/
def dispatchStatusSchema : String := "goalflight.status.v1"

/-- The schema of the mirrors, with the state in their vocabulary. -/
def withMirrorSchema (payload : Mapping) : Mapping :=
  if value payload "schema" = .str dispatchStatusSchema then
    let normalized := (payload.set "schema" (textDocument statusMirrorSchema)).set "source_schema"
      (textDocument dispatchStatusSchema)
    match value payload "state" with
    | .str state =>
      let normalized := normalized.set "source_state" (textDocument state)
      match normalizeDispatchState state with
      | some normalizedState => normalized.set "state" (textDocument normalizedState)
      | none => normalized
    | _ => normalized
  else payload

/-- `_terminal_state_for`; a state that has no hash is an exception. -/
def terminalStateOf (state reason : Value) : Except Refusal String :=
  match state with
  | .str s => .ok (terminalStateFor s (textOf reason))
  | .arr _ | .obj _ => .error .raised
  | _ => .ok "unknown"

/-- `_liveness_state_for`. -/
def livenessStateFor (payload : Mapping) (terminalState : String) : String :=
  if terminalState ≠ "unknown" ∧ value payload "state" ≠ .str "watcher_stopped" then "terminal"
  else if value payload "worker_alive" = .bool true then "live"
  else if value payload "worker_alive" = .bool false then "dead"
  else "unknown"

/-- The defaults that follow from the state and the marker. -/
def withStateDefaults (payload normalized : Mapping) (terminalState : String) : Mapping :=
  let normalized := normalized.setDefault "liveness_state"
    (textDocument (livenessStateFor payload terminalState))
  let normalized :=
    if terminalState = "unknown" then normalized
    else normalized.setDefault "terminal_state" (textDocument terminalState)
  match (value normalized "terminal_marker").get "type" with
  | .str markerType =>
    if markerType = "" then normalized
    else normalized.setDefault "marker_state" (textDocument markerType.toLower)
  | _ => normalized

/-- The worker's identity, under both names. -/
def withIdentity (m : Mapping) : Mapping :=
  let identity :=
    if (value m "worker_identity").truthy then m.field "worker_identity"
    else m.field "expected_worker_identity"
  if identity.1.isDict then
    (m.set "worker_identity" identity).setDefault "expected_worker_identity" identity
  else m

/-- The checks at the end, and what was read. -/
def finishReading (m : Mapping) : Except Refusal Reading :=
  match coerceEpoch (value m "epoch") with
  | none => .error .schemaMismatch
  | some epoch =>
    let m := m.set "epoch" epoch.document
    if (["schema", "seq", "dispatch_id", "state"].all fun key => (m.get? key).isSome) = true then
      match coerceSeq (value m "seq") with
      | none => .error .schemaMismatch
      | some seq =>
        if seq < 0 then .error .schemaMismatch
        else
          let m := m.set "seq" (intDocument seq)
          .ok ⟨m, seq, epoch, lineageIdentityFor m⟩
    else .error .schemaMismatch

/-- **`normalize_status_payload`.** -/
def normalizeStatusPayload (isoSeconds : String → Option ℤ) (payload : Mapping) :
    Except Refusal Reading := do
  if value payload "schema" ≠ .str statusMirrorSchema ∧
      value payload "schema" ≠ .str dispatchStatusSchema then
    throw .schemaMismatch
  let normalized := withMirrorSchema payload
  let seq ← synthesizedSeq isoSeconds normalized
  let normalized := seq.elim normalized fun seq => normalized.set "seq" (intDocument seq)
  let terminalState ← terminalStateOf ((value payload "state").orElse (value normalized "state"))
    (value normalized "reason")
  finishReading (withIdentity (withStateDefaults payload normalized terminalState))

/-! ### Files -/

/-- A status file, by what it reads as. -/
inductive MirrorFile
  | missing
  /-- Empty, or no JSON. -/
  | garbled
  | json (d : Document)
deriving DecidableEq

/-- `_legacy_lineage_reset_allowed`. -/
def legacyLineageResetAllowed (rawHadEpoch : Bool) (incoming last : Reading) : Bool :=
  !rawHadEpoch && incoming.epoch = legacyEpoch && last.epoch = legacyEpoch &&
    incoming.seq < last.seq && lineageIdentityChanged incoming.lineageIdentity last.lineageIdentity

/-- What is read follows the last one, or starts again. -/
def follows (rawHadEpoch : Bool) (incoming last : Reading) : Bool :=
  incoming.epoch ≠ last.epoch || last.seq < incoming.seq ||
    legacyLineageResetAllowed rawHadEpoch incoming last

/-- **`read_status_mirror`.** -/
def readStatusMirror (isoSeconds : String → Option ℤ) (file : MirrorFile) (last : Option Reading) :
    Except Refusal Reading :=
  match file with
  | .missing => .error .missingFile
  | .garbled => .error .partialJson
  | .json d =>
    match mapping? d with
    | none => .error .schemaMismatch
    | some payload => do
        let incoming ← normalizeStatusPayload isoSeconds payload
        if last.all (follows (payload.get? "epoch").isSome incoming) then return incoming
        else throw (.seqRegression incoming.seq incoming.epoch)

/-- `_payload_epoch`: an epoch as a text. -/
def payloadEpoch : Value → Option String
  | .int n => some (String.ofList (intText n))
  | .float t =>
    if Value.FloatText.isInteger t then some (String.ofList (intText (Value.FloatText.truncate t)))
    else none
  | .str s => if strip s ≠ "" then some (strip s) else none
  | _ => none

/-- `_read_existing_status_epoch`. -/
def MirrorFile.existingEpoch : MirrorFile → Option String
  | .json d => (mapping? d).bind fun m => payloadEpoch (value m "epoch")
  | _ => none

/-- What a process has for a file without an epoch: what it remembers of the file, and a new
`uuid4`. -/
structure EpochSource where
  cached : Option String
  uuid : String

/-- An epoch that is new. -/
def EpochSource.fresh (source : EpochSource) : String := "status-" ++ source.uuid

/-- `_status_epoch_for`. -/
def statusEpochFor (file : MirrorFile) (source : EpochSource) : String :=
  match file.existingEpoch with
  | some epoch => epoch
  | none => if file = .missing then source.fresh else source.cached.getD source.fresh

/-- `_ensure_status_epoch`, of a payload in one of the two schemas. -/
def ensureStatusEpoch (file : MirrorFile) (source : EpochSource) (payload : Mapping) : Mapping :=
  if (payloadEpoch (value payload "epoch")).isSome then payload
  else payload.set "epoch" (textDocument (statusEpochFor file source))

/-- **`write_status`.** -/
def writeStatus (file : MirrorFile) (source : EpochSource) (payload : Mapping) : MirrorFile :=
  .json (redactMapping (ensureStatusEpoch file source payload)).document

end GoalFlight.Fleet
