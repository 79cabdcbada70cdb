import GoalFlight.Ledger.Writers
import GoalFlight.Tasks.Records

/-!
# Ledger: the first end of a row

The `ended_at` of a row, as the text or the other value that is stored.  Two layers keep the
first one: `preserve_first_terminal_time` on the row that is about to be written, which takes
the texts `None` and `null` for no time, and `write_record`, which puts back whatever is
stored and not empty.  So a stored `None` outlives every projection, and `Repairable` is
load-bearing in `first_end_wins_iff`.

A row is here the object that its file holds.
-/

namespace GoalFlight.Ledger.Fields

open Json Json.Value GoalFlight.Dispatch GoalFlight.Tasks

variable {key : String} {record row : Mapping}

/-! ### Terminal times -/

/-- `_is_usable_terminal_time`. -/
def isUsableTerminalTime (v : Value) : Bool :=
  !v.isAbsent && strip (strOf v).toList ∉ ["None".toList, "null".toList]

/-- The text of a missing time that was stored as if it were one. -/
def Poisoned (v : Value) : Prop := v.isAbsent = false ∧ isUsableTerminalTime v = false

instance : DecidablePred Poisoned := fun v =>
  inferInstanceAs (Decidable (v.isAbsent = false ∧ isUsableTerminalTime v = false))

/-- The end of a row. -/
def endedAt (record : Mapping) : Value := (record.field "ended_at").1

/-- `preserve_first_terminal_time`: the row, and the time that is returned. -/
def preserveFirstTerminalTime (record : Mapping) (terminalAt : Value) : Mapping × Option String :=
  if isUsableTerminalTime (endedAt record) then (record, some (strOf (endedAt record)))
  else if isUsableTerminalTime terminalAt then
    (record.set "ended_at" (textValue (strOf terminalAt)), some (strOf terminalAt))
  else (record, none)

/-! ### Writing -/

/-- What a command reads beside the row. -/
structure World where
  /-- `utc_now()`. -/
  clock : String
  /-- `canonicalize_project_root_on_store`. -/
  canonicalRoot : Value → String
  /-- `elapsed_seconds`, rounded. -/
  elapsedSeconds : Mapping → Option String → Option Document

/-- The row as `write_record` writes it over the one that is there. -/
def writtenRow (w : World) (stored : Option Mapping) (record : Mapping) : Mapping :=
  let root := (record.field "project_root").1
  let record := if root.isAbsent then record
    else record.set "project_root" (textValue (w.canonicalRoot root))
  let record := match stored.filter fun current => !(endedAt current).isAbsent with
    | some current => record.set "ended_at" (current.field "ended_at")
    | none => record
  record.set "updated_at" (textValue w.clock)

/-! ### Recording -/

/-- The fields of the row that `cmd_record` builds. -/
def rowKeys : List String :=
  ["schema", "dispatch_id", "prompt_id", "prompt_path", "prompt_sha256", "agent", "engine",
    "shape", "account", "transport", "project_root", "controller_pid", "controller_session_id",
    "controller_label", "controller_identity", "claimant_pid", "claimant_identity", "worker_pid",
    "worker_identity", "worker_pgid", "acp_session_id", "logical_session_id", "lease_id",
    "remote_lease_id", "stdout_path", "stderr_path", "status_path", "os_sandbox", "state",
    "terminal_state", "started_at", "hostname", "model", "effective_account",
    "engine_session_id", "codex_session_id", "codex_home", "codex_home_owner_dispatch_id",
    "parent_dispatch_id", "resume_mode", "reasoning_effort", "request_envelope", "worker_cwd",
    "worktree_id", "worktree_seat", "worktree_path", "worktree_base", "worktree_head",
    "worktree_branch", "worktree_keep_ref", "worktree_quarantine_ref",
    "worktree_reclaimed_dispatch_id", "dispatch_argv", "task_ids", "detached",
    "queue_launch_token"]

/-- The row that `cmd_record` builds from its arguments. -/
structure RecordArgs where
  built : Mapping
  keys : ∀ field ∈ built.1, field.1 ∈ rowKeys

/-- The states of a launch, for which the journal is asked. -/
def launchStates : List String := ["waiting_capacity", "starting", "running"]

/-- The fields of a worktree. -/
def worktreeKeys : List String :=
  ["worktree_id", "worktree_seat", "worktree_path", "worktree_base", "worktree_head",
    "worktree_branch", "worktree_keep_ref", "worktree_quarantine_ref",
    "worktree_reclaimed_dispatch_id"]

/-- The fields of a session, and of a dispatch that another one replaces. -/
def sessionKeys : List String :=
  ["engine_session_id", "codex_session_id", "codex_home", "codex_home_owner_dispatch_id",
    "parent_dispatch_id", "model", "reasoning_effort", "superseded_by", "superseded_at",
    "supersession_actor", "supersession_reason", "wip_ref"]

/-- A field that is not in the row is taken over, if the value there will do. -/
def inheritField (will : Value → Bool) (existing record : Mapping) (key : String) : Mapping :=
  if (record.get? key).isNone ∧ will (existing.field key).1 = true then
    record.set key (existing.field key)
  else record

/-- Fields that are taken over together. -/
def takeOver (existing record : Mapping) (keys : List String) : Mapping :=
  record.update (keys.map fun key => (key, existing.field key))

/-- The owner of a row: the controller that is given, or the one that is there. -/
def inheritController (existing record : Mapping) : Mapping :=
  let has := fun (m : Mapping) key => (m.field key).1
  if has record "controller_session_id" = .null ∧
      (has existing "controller_session_id").truthy = true ∧
      has existing "controller_pid" ≠ .null then
    takeOver existing record
      ["controller_session_id", "controller_pid", "controller_label", "controller_identity"]
  else if has record "controller_label" = .null ∧
      has record "controller_session_id" = has existing "controller_session_id" ∧
      has record "controller_pid" = has existing "controller_pid" then
    takeOver existing record ["controller_label"]
  else record

/-- The claimant of a row. -/
def inheritClaimant (existing record : Mapping) : Mapping :=
  if (record.field "claimant_pid").1 = .null ∧
      (existing.field "claimant_pid").1.truthy = true then
    takeOver existing record ["claimant_pid", "claimant_identity"]
  else record

/-- The engine session of a row that has only that of codex. -/
def defaultEngineSession (record : Mapping) : Mapping :=
  if (record.field "codex_session_id").1.truthy = true ∧
      (record.field "engine_session_id").1.truthy = false then
    record.set "engine_session_id" (record.field "codex_session_id")
  else record

/-- What the row of `cmd_record` takes over from the row that is there. -/
def mergedRow (existing record : Mapping) : Mapping :=
  let record :=
    if (existing.field "started_at").1.truthy then takeOver existing record ["started_at"]
    else record
  let record := inheritField isDict existing record "request_envelope"
  let record := inheritField truthy existing record "worker_cwd"
  let record := inheritField (fun v => v matches .arr _) existing record "dispatch_argv"
  let record := worktreeKeys.foldl (inheritField truthy existing) record
  let record := inheritClaimant existing (inheritController existing record)
  defaultEngineSession (sessionKeys.foldl (inheritField truthy existing) record)

/-- The identity of an attempt. -/
def launchFields (identity : AttemptIdentity) : List (String × Document) :=
  [("attempt_id", textValue identity.attemptId), ("launch_token", textValue identity.launchToken),
    ("launch_epoch", ⟨.int identity.launchEpoch, rfl⟩)]

/-- What `cmd_record` writes, where `answer` is the attempt that the journal gives. -/
def recordedRow (stored : Option Mapping) (a : RecordArgs) (answer : Option AttemptIdentity) :
    Option Mapping :=
  let merged := fun record => (stored.map fun existing => mergedRow existing record).getD record
  if (textOf (a.built.field "state").1).any (· ∈ launchStates) then
    answer.map fun identity => merged (a.built.update (launchFields identity))
  else some (merged a.built)

/-! ### Ending -/

/-- The fields of an object. -/
def entries (m : Mapping) : List (String × Document) :=
  m.1.map fun field => (field.1, m.field field.1)

/-- The outcome of an observation. -/
def outcomeOf (observation : Mapping) : Mapping :=
  (asMapping? (observation.field "outcome").1).getD .empty

/-- A terminal commit.  Its outcome is what `failure_envelope` made of a cause. -/
structure Winner where
  attemptId : String
  transitionId : String
  eventUuid : String
  terminalState : String
  observation : Mapping
  terminalAt : Value
  idempotent : Bool
  envelope : ∀ field ∈ (outcomeOf observation).1, field.1 ∈ ["error", "reason"]

namespace Winner

/-- `str(observation.get("state") or terminal_state)`. -/
def state (v : Winner) : String :=
  if (v.observation.field "state").1.truthy then strOf (v.observation.field "state").1
  else v.terminalState

/-- The identity of the commit. -/
def identityFields (v : Winner) : List (String × Document) :=
  [("attempt_id", textValue v.attemptId), ("transition_id", textValue v.transitionId),
    ("terminal_event_uuid", textValue v.eventUuid)]

/-- `prelaunch_failure`, where the observation has it. -/
def prelaunchFields (v : Winner) : List (String × Document) :=
  if (v.observation.get? "prelaunch_failure").isSome then
    [("prelaunch_failure", boolValue (v.observation.field "prelaunch_failure").1.truthy)]
  else []

/-- The limit that the cause reports. -/
def limitValues (v : Winner) : List (String × Document) :=
  let outcome := outcomeOf v.observation
  let cause := asMapping? ((outcome.field "error").1.orElse (outcome.field "reason").1)
  match cause.filter fun cause => (cause.field "limit_kind").1.truthy with
  | some cause => limitFields.map fun key => (key, cause.field key)
  | none => []

/-- What is put on the row and in its outcome. -/
def causeFields (v : Winner) : List (String × Document) :=
  entries (outcomeOf v.observation) ++ v.prelaunchFields ++ v.limitValues

/-- The headline of the observation. -/
def headlineFields (v : Winner) : List (String × Document) :=
  let headline := strip ((textOf (v.observation.field "headline").1).getD "").toList
  if headline = [] then [] else [("headline", textValue (String.ofList headline))]

end Winner

/-- The arguments of `cmd_finish`, without what only the commit reads. -/
structure FinishArgs where
  /-- `--terminal-state`. -/
  requestedTerminal : Option String := none
  elapsedS : Option Document := none
  workerStillAlive : Option Document := none

/-- The refusal of another terminal state than the one that has won. -/
def FinishArgs.refused (a : FinishArgs) (v : Winner) : Prop :=
  v.idempotent = true ∧ ∃ state ∈ Capacity.given a.requestedTerminal, state ≠ v.terminalState

instance (a : FinishArgs) (v : Winner) : Decidable (a.refused v) :=
  inferInstanceAs (Decidable (v.idempotent = true ∧
    ∃ state ∈ Capacity.given a.requestedTerminal, state ≠ v.terminalState))

/-- A field that is there, as a list of fields. -/
def givenField (key : String) (v : Option Document) : List (String × Document) :=
  v.toList.map fun v => (key, v)

/-- `_terminal_key`. -/
def terminalKey (record : Mapping) : String :=
  let read := fun key => (record.field key).1
  if (read "terminal_state").truthy then strOf (read "terminal_state")
  else Capacity.terminalStateFor ((textOf (read "state")).getD "")
    (textOf ((read "reason").orElse (read "error")))

/-- The row that `cmd_finish` writes. -/
def finishedRow (w : World) (a : FinishArgs) (v : Winner) (record : Mapping) : Mapping :=
  let state :=
    if v.idempotent = true ∧ terminalKey record = v.terminalState then
      record.field "state"
    else textValue v.state
  let (record, ended) := preserveFirstTerminalTime (record.set "state" state) v.terminalAt
  let record := record.update
    [("terminal_state", textValue v.terminalState),
      ("liveness_state", textValue (terminalLivenessState (strOrEmpty state.1)))]
  let elapsed := a.elapsedS.or (w.elapsedSeconds record ended)
  let outcome := (Mapping.empty.set "terminal_state" (textValue v.terminalState)).update
    v.causeFields
  record.update (givenField "elapsed_s" elapsed ++
    givenField "worker_still_alive" a.workerStillAlive ++ [("outcome", outcome.document)] ++
    v.causeFields ++ v.headlineFields ++ v.identityFields)

/-- `terminal_record_projection`. -/
def terminalRecordProjection (v : Winner) (reason : Document) (record : Mapping) : Mapping :=
  let record := (record.pop "sidecar_hold").pop "sidecar_hold_reason"
  let abandoned := v.terminalState = "abandoned"
  let record :=
    if abandoned then record.set "journal_terminal_state" (textValue v.terminalState) else record
  let terminalState := if abandoned then "withdrawn" else v.terminalState
  let record := record.update
    ([("state", textValue (if abandoned then "withdrawn" else v.state)),
      ("terminal_state", textValue terminalState), ("worker_still_alive", boolValue false),
      ("liveness_state", textValue (terminalLivenessState terminalState))] ++
      v.identityFields ++ [("reason", reason)])
  (preserveFirstTerminalTime record v.terminalAt).1.update
    ((["withdrawn_by", "superseded_by"].filter fun key => (v.observation.get? key).isSome).map
      fun key => (key, v.observation.field key))

/-! ### The commands on one row -/

/-- The commands that write the row.  A fault of the file system is no step: the row is
replaced as a whole. -/
inductive Op
  /-- `write_record`. -/
  | write (row : Mapping)
  /-- `cmd_record`. -/
  | record (a : RecordArgs) (answer : Option AttemptIdentity)
  /-- `cmd_finish`, where `commit` is what the journal committed. -/
  | finish (a : FinishArgs) (commit : Option Winner)
  /-- `terminal_record_projection` of the row that is there, or of the one that is known of a
  dispatch without a row, and `write_record`. -/
  | project (known : Mapping) (v : Winner) (reason : Document)

namespace Op

/-- The row that a command hands to `write_record`. -/
def written (w : World) (stored : Option Mapping) : Op → Option Mapping
  | .write row => some row
  | .record a answer => recordedRow stored a answer
  | .finish a commit => do
      let row ← stored
      let v ← commit
      if a.refused v then none else some (finishedRow w a v row)
  | .project known v reason => some (terminalRecordProjection v reason (stored.getD known))

/-- The row that a command projects a verdict on, and the verdict. -/
def projects (stored : Option Mapping) : Op → Option (Mapping × Winner)
  | .finish a commit => do
      let row ← stored
      let v ← commit
      if a.refused v then none else some (row, v)
  | .project known v _ => some (stored.getD known, v)
  | _ => none

end Op

/-- A command, and what it reads. -/
abbrev Action := World × Op

/-- The row after a command. -/
def step (stored : Option Mapping) (act : Action) : Option Mapping :=
  ((act.2.written act.1 stored).map (writtenRow act.1 stored)).or stored

/-- The end that is stored. -/
def storedEnd (stored : Option Mapping) : Value := (stored.map endedAt).getD .null

/-! ### What is asked of a run -/

/-- A projection of the journal's time on a row without a usable one leaves that time. -/
def LeavesTime (stored : Option Mapping) (act : Action) : Prop :=
  ∀ base v, act.2.projects stored = some (base, v) → isUsableTerminalTime v.terminalAt = true →
    isUsableTerminalTime (storedEnd stored) = false →
    storedEnd (step stored act) = .str (strOf v.terminalAt)

/-- **The first end wins, and a missing one is repaired.** -/
structure FirstEndWins (stored : Option Mapping) (actions : List Action) : Prop where
  kept : ∀ before after, actions = before ++ after →
    isUsableTerminalTime (storedEnd (Machine.run step stored before)) = true →
    storedEnd (Machine.run step stored actions) = storedEnd (Machine.run step stored before)
  repaired : Machine.Meets step LeavesTime stored actions

/-- **The condition of a projection**: no poisoned text is stored, and what is known of a
dispatch without a row has no usable end of its own. -/
def Repairable (stored : Option Mapping) (act : Action) : Prop :=
  ∀ base v, act.2.projects stored = some (base, v) → isUsableTerminalTime v.terminalAt = true →
    ¬ Poisoned (storedEnd stored) ∧
      (stored = none → isUsableTerminalTime (endedAt base) = true →
        endedAt base = .str (strOf v.terminalAt))

/-! ### What leaves the end alone -/

theorem endedAt_eq (record : Mapping) : endedAt record = (record.get? "ended_at").getD .null :=
  record.field_val "ended_at"

theorem endedAt_congr {record' : Mapping}
    (h : record'.get? "ended_at" = record.get? "ended_at") :
    endedAt record' = endedAt record := by
  rw [endedAt_eq, endedAt_eq, h]

theorem endedAt_update (record : Mapping) {fields : List (String × Document)}
    (h : "ended_at" ∉ fields.map Prod.fst) : endedAt (record.update fields) = endedAt record :=
  endedAt_congr (record.get?_update_of_notMem h)

theorem get?_end_set (record : Mapping) (hne : "ended_at" ≠ key) (v : Document) :
    (record.set key v).get? "ended_at" = record.get? "ended_at" := record.get?_set_of_ne hne v

/-! ### What a projection makes of the end -/

theorem map_fst_entries (m : Mapping) : (entries m).map Prod.fst = m.1.map Prod.fst := by
  unfold entries
  rw [List.map_map]
  rfl

theorem end_notMem_limitValues (v : Winner) : "ended_at" ∉ v.limitValues.map Prod.fst := by
  unfold Winner.limitValues
  simp only
  split
  · rw [List.map_map]
    show "ended_at" ∉ limitFields.map id
    decide
  · exact List.not_mem_nil

theorem end_notMem_prelaunchFields (v : Winner) :
    "ended_at" ∉ v.prelaunchFields.map Prod.fst := by
  unfold Winner.prelaunchFields
  split
  · exact show "ended_at" ∉ ["prelaunch_failure"] by decide
  · exact List.not_mem_nil

theorem end_notMem_causeFields (v : Winner) : "ended_at" ∉ v.causeFields.map Prod.fst := by
  unfold Winner.causeFields
  rw [List.map_append, List.map_append, map_fst_entries, List.mem_append, List.mem_append]
  rintro ((h | h) | h)
  · obtain ⟨field, hfield, hkey⟩ := List.mem_map.mp h
    exact absurd (hkey ▸ v.envelope field hfield) (by decide)
  · exact end_notMem_prelaunchFields v h
  · exact end_notMem_limitValues v h

theorem end_notMem_headlineFields (v : Winner) : "ended_at" ∉ v.headlineFields.map Prod.fst := by
  unfold Winner.headlineFields
  simp only
  split
  · exact List.not_mem_nil
  · exact show "ended_at" ∉ ["headline"] by decide

theorem end_notMem_identityFields (v : Winner) : "ended_at" ∉ v.identityFields.map Prod.fst :=
  show "ended_at" ∉ ["attempt_id", "transition_id", "terminal_event_uuid"] by decide

theorem end_notMem_givenField (hne : "ended_at" ≠ key) (v : Option Document) :
    "ended_at" ∉ (givenField key v).map Prod.fst := by
  cases v with
  | none => exact List.not_mem_nil
  | some v => exact fun h => hne (List.mem_singleton.mp h)

theorem endedAt_preserve (record : Mapping) (terminalAt : Value) :
    endedAt (preserveFirstTerminalTime record terminalAt).1 =
      if isUsableTerminalTime (endedAt record) = true ∨
          isUsableTerminalTime terminalAt = false then endedAt record
      else .str (strOf terminalAt) := by
  unfold preserveFirstTerminalTime
  split
  · rename_i husable
    rw [if_pos (.inl husable)]
  · rename_i hunusable
    split
    · rename_i husable
      rw [if_neg (not_or.mpr ⟨hunusable, ne_false_of_eq_true husable⟩)]
      show endedAt (record.set "ended_at" _) = _
      rw [endedAt_eq, Mapping.get?_set]
      rfl
    · rename_i hunusable
      rw [if_pos (.inr (eq_false_of_ne_true hunusable))]

theorem endedAt_preserve_congr {record' : Mapping}
    (h : record'.get? "ended_at" = record.get? "ended_at") (terminalAt : Value) :
    endedAt (preserveFirstTerminalTime record' terminalAt).1 =
      endedAt (preserveFirstTerminalTime record terminalAt).1 := by
  rw [endedAt_preserve, endedAt_preserve, endedAt_congr h]

theorem endedAt_finishedRow (w : World) (a : FinishArgs) (v : Winner) (record : Mapping) :
    endedAt (finishedRow w a v record) =
      endedAt (preserveFirstTerminalTime record v.terminalAt).1 := by
  unfold finishedRow
  simp only
  rw [endedAt_update, endedAt_update]
  · exact endedAt_preserve_congr (get?_end_set record (by decide) _) _
  · exact show "ended_at" ∉ ["terminal_state", "liveness_state"] by decide
  · simp only [List.map_append, List.mem_append, not_or]
    exact ⟨⟨⟨⟨⟨end_notMem_givenField (by decide) _, end_notMem_givenField (by decide) _⟩,
      show "ended_at" ∉ ["outcome"] by decide⟩, end_notMem_causeFields v⟩,
      end_notMem_headlineFields v⟩, end_notMem_identityFields v⟩

theorem endedAt_terminalRecordProjection (v : Winner) (reason : Document) (record : Mapping) :
    endedAt (terminalRecordProjection v reason record) =
      endedAt (preserveFirstTerminalTime record v.terminalAt).1 := by
  unfold terminalRecordProjection
  simp only
  rw [endedAt_update]
  · refine endedAt_preserve_congr ?_ _
    rw [Mapping.get?_update_of_notMem]
    split
    · rw [get?_end_set _ (by decide), Mapping.get?_pop_of_ne _ (by decide),
        Mapping.get?_pop_of_ne _ (by decide)]
    · rw [Mapping.get?_pop_of_ne _ (by decide), Mapping.get?_pop_of_ne _ (by decide)]
    · exact show "ended_at" ∉ ["state", "terminal_state", "worker_still_alive",
        "liveness_state", "attempt_id", "transition_id", "terminal_event_uuid", "reason"] by decide
  · intro h
    rw [List.map_map] at h
    obtain ⟨key, hkey, hend⟩ := List.mem_map.mp h
    obtain rfl : key = "ended_at" := hend
    exact absurd (List.mem_of_mem_filter hkey) (by decide)

/-! ### What a command makes of the stored end -/

variable {stored : Option Mapping} {act : Action} {v : Value}

theorem isUsableTerminalTime_iff :
    isUsableTerminalTime v = true ↔
      v.isAbsent = false ∧ strip (strOf v).toList ∉ ["None".toList, "null".toList] := by
  unfold isUsableTerminalTime
  rw [Bool.and_eq_true, Bool.not_eq_true', decide_eq_true_eq]

theorem Poisoned.ne_text {t : Value} (h : Poisoned v) (ht : isUsableTerminalTime t = true) :
    v ≠ .str (strOf t) := by
  rintro rfl
  have hunusable : ¬ isUsableTerminalTime (.str (strOf t)) = true := ne_true_of_eq_false h.2
  exact hunusable (isUsableTerminalTime_iff.mpr ⟨h.1, (isUsableTerminalTime_iff.mp ht).2⟩)

theorem endedAt_writtenRow (w : World) (stored : Option Mapping) (record : Mapping) :
    endedAt (writtenRow w stored record) =
      if (storedEnd stored).isAbsent then endedAt record else storedEnd stored := by
  have hroot : endedAt (if (record.field "project_root").1.isAbsent then record
      else record.set "project_root"
        (textValue (w.canonicalRoot (record.field "project_root").1))) = endedAt record := by
    split
    · rfl
    · exact endedAt_congr (get?_end_set record (by decide) _)
  unfold writtenRow
  simp only
  rw [endedAt_congr (get?_end_set _ (by decide) _)]
  cases stored with
  | none => exact hroot
  | some current =>
    rw [Option.filter_some]
    show _ = if (endedAt current).isAbsent then endedAt record else endedAt current
    cases habsent : (endedAt current).isAbsent with
    | true => exact hroot
    | false =>
      show endedAt (Mapping.set _ "ended_at" (current.field "ended_at")) = endedAt current
      rw [endedAt_eq, Mapping.get?_set]
      rfl

theorem step_of_written (h : act.2.written act.1 stored = some record) :
    step stored act = some (writtenRow act.1 stored record) := by
  unfold step
  rw [h]
  rfl

theorem step_of_not_written (h : act.2.written act.1 stored = none) : step stored act = stored := by
  unfold step
  rw [h]
  rfl

/-- **What is stored stays**: no command replaces an end that is not empty, be it a time or not. -/
theorem storedEnd_step_of_present (h : (storedEnd stored).isAbsent = false) :
    storedEnd (step stored act) = storedEnd stored := by
  cases hwritten : act.2.written act.1 stored with
  | none => rw [step_of_not_written hwritten]
  | some record =>
    rw [step_of_written hwritten]
    show endedAt (writtenRow act.1 stored record) = _
    rw [endedAt_writtenRow, h]
    rfl

theorem storedEnd_run_of_present (h : (storedEnd stored).isAbsent = false)
    (actions : List Action) : storedEnd (Machine.run step stored actions) = storedEnd stored := by
  induction actions generalizing stored with
  | nil => rfl
  | cons act rest ih =>
    have hstep : storedEnd (step stored act) = storedEnd stored := storedEnd_step_of_present h
    rw [Machine.run_cons, ih (hstep ▸ h), hstep]

/-- What a projection writes has the end that `preserve_first_terminal_time` leaves. -/
theorem written_of_projects {base : Mapping} {v : Winner}
    (h : act.2.projects stored = some (base, v)) :
    base = stored.getD base ∧ ∃ record, act.2.written act.1 stored = some record ∧
      endedAt record = endedAt (preserveFirstTerminalTime base v.terminalAt).1 := by
  obtain ⟨w, op⟩ := act
  cases op with
  | write row => cases h
  | record a answer => cases h
  | finish a commit =>
    cases stored with
    | none => cases h
    | some row =>
      cases commit with
      | none => cases h
      | some winner =>
        by_cases hrefused : a.refused winner
        · simp [Op.projects, hrefused] at h
        · simp [Op.projects, hrefused] at h
          obtain ⟨rfl, rfl⟩ := h
          refine ⟨rfl, finishedRow w a winner row, ?_, endedAt_finishedRow w a winner row⟩
          simp [Op.written, hrefused]
  | project known winner reason =>
    obtain ⟨rfl, rfl⟩ := Prod.mk.inj (Option.some.inj h)
    refine ⟨?_, _, rfl, endedAt_terminalRecordProjection _ _ _⟩
    cases stored with
    | none => rfl
    | some row => rfl

theorem storedEnd_step_of_projects {base : Mapping} {v : Winner}
    (h : act.2.projects stored = some (base, v)) :
    storedEnd (step stored act) =
      if (storedEnd stored).isAbsent then endedAt (preserveFirstTerminalTime base v.terminalAt).1
      else storedEnd stored := by
  obtain ⟨-, record, hwritten, hend⟩ := written_of_projects h
  rw [step_of_written hwritten, ← hend]
  exact endedAt_writtenRow act.1 stored record

/-- **A projection leaves the journal's time exactly under the condition.** -/
theorem leavesTime_iff (stored : Option Mapping) (act : Action) :
    LeavesTime stored act ↔ Repairable stored act := by
  refine forall_congr' fun base => forall_congr' fun v => forall_congr' fun hprojects =>
    forall_congr' fun husable => ?_
  have hbase := (written_of_projects hprojects).1
  rw [storedEnd_step_of_projects hprojects, endedAt_preserve]
  have htime : isUsableTerminalTime v.terminalAt ≠ false := ne_false_of_eq_true husable
  cases stored with
  | none =>
    show (_ → (if _ ∨ _ then endedAt base else _) = _) ↔ _
    constructor
    · intro h
      refine ⟨by decide, fun _ hend => ?_⟩
      rw [← h rfl, if_pos (.inl hend)]
    · rintro ⟨-, hknown⟩ -
      by_cases hend : isUsableTerminalTime (endedAt base) = true
      · rw [if_pos (.inl hend)]
        exact hknown rfl hend
      · exact if_neg (not_or.mpr ⟨hend, htime⟩)
  | some row =>
    obtain rfl : base = row := hbase
    show (isUsableTerminalTime (endedAt base) = false →
      (if (endedAt base).isAbsent then _ else endedAt base) = _) ↔ _
    constructor
    · refine fun h => ⟨fun hpoisoned => ?_, fun hnone => absurd hnone (Option.some_ne_none _)⟩
      have hleft := h hpoisoned.2
      have hpresent : (endedAt base).isAbsent = false := hpoisoned.1
      rw [hpresent, if_neg Bool.false_ne_true] at hleft
      exact hpoisoned.ne_text husable hleft
    · rintro ⟨hclean, -⟩ hunusable
      have habsent : (endedAt base).isAbsent = true :=
        Bool.not_eq_false _ ▸ fun hpresent => hclean ⟨hpresent, hunusable⟩
      rw [if_pos habsent]
      exact if_neg (not_or.mpr ⟨ne_true_of_eq_false hunusable, htime⟩)

/-! ### Runs -/

theorem FirstEndWins.of_meets {actions : List Action}
    (h : Machine.Meets step LeavesTime stored actions) : FirstEndWins stored actions := by
  refine ⟨?_, h⟩
  rintro before after rfl husable
  rw [Machine.run_append]
  exact storedEnd_run_of_present (isUsableTerminalTime_iff.mp husable).1 after

/-- **The first end wins**, and a missing one is repaired, exactly in the runs in which no
projection meets a poisoned text. -/
theorem first_end_wins_iff (stored : Option Mapping) (actions : List Action) :
    FirstEndWins stored actions ↔ Machine.Meets step Repairable stored actions := by
  have hstep : ∀ s, ∀ act ∈ actions, True →
      (LeavesTime s act ↔ Repairable s act) ∧ (Repairable s act → True) :=
    fun s act _ _ => ⟨leavesTime_iff s act, fun _ => trivial⟩
  have hsteps : Machine.Meets step LeavesTime stored actions ↔
      Machine.Meets step Repairable stored actions := Machine.meets_iff_of_invariant hstep trivial
  exact ⟨fun h => hsteps.mp h.repaired, fun h => .of_meets (hsteps.mpr h)⟩

/-- A row whose end was stored from a missing column. -/
def poisonedRow : Mapping :=
  Mapping.empty.update [("dispatch_id", textValue "d"), ("ended_at", textValue "None")]

/-- A commit of the journal. -/
def completeWinner : Winner where
  attemptId := "a"
  transitionId := "tr"
  eventUuid := "event"
  terminalState := "complete"
  observation := .empty
  terminalAt := .str "2026-01-01T00:00:00Z"
  idempotent := false
  envelope := List.forall_mem_nil _

/-- Its projection. -/
def projectWinner : Action :=
  ({ clock := "2026-01-02T00:00:00Z", canonicalRoot := strOf, elapsedSeconds := fun _ _ => none },
    .project poisonedRow completeWinner (textValue "worker_dead"))

/-- **A poisoned text is not repaired**: the projection puts the journal's time on the row, and
`write_record` puts the text back. -/
theorem poisoned_end_frozen : ¬ FirstEndWins (some poisonedRow) [projectWinner] := by
  intro h
  have hrepairable := (leavesTime_iff _ _).mp h.repaired.1
  exact (hrepairable poisonedRow completeWinner rfl (by decide)).1 (by decide)

end GoalFlight.Ledger.Fields
