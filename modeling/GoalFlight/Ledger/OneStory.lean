import GoalFlight.Ledger.FirstEnd
import GoalFlight.Library.Dictionary

/-!
# Ledger: one story a row

Three writers put a verdict of the journal on a row: `commit_reconciled_terminal` of the drain,
`_commit_abandoned_dispatch`, and `cmd_finish`.  The verdict may be that of another classifier,
who was first.  Each writer takes some fields from the winner and others from its own decision;
`one_story_iff` says when the two agree on the row.  The drain stores the state and the cause of its
own decision beside the terminal state of the winner, its sibling takes the winner's.
-/

namespace Json.Mapping

/-- **An update** is the dictionary of its fields over the mapping: the last pair of a key
counts. -/
theorem get?_update (m : Mapping) (fields : List (String × Document)) (key : String) :
    (m.update fields).get? key =
      ((Dictionary.get? fields key).map Subtype.val).or (m.get? key) := by
  unfold update
  induction fields generalizing m with
  | nil => rfl
  | cons field rest ih =>
    rw [List.foldl_cons, ih, Dictionary.get?_cons]
    cases Dictionary.get? rest key with
    | some v => rfl
    | none =>
      rw [Option.none_or, Option.map_none, Option.none_or]
      split
      · rename_i hkey
        rw [hkey, get?_set]
        rfl
      · rename_i hkey
        rw [get?_set_of_ne _ hkey]
        rfl

theorem field_update (m : Mapping) (fields : List (String × Document)) (key : String) :
    ((m.update fields).field key).1 =
      (((Dictionary.get? fields key).map Subtype.val).or (m.get? key)).getD .null := by
  rw [field_val, get?_update]

end Json.Mapping

namespace GoalFlight.Ledger.Fields

open Json Json.Value GoalFlight.Dispatch GoalFlight.Tasks

/-! ### The writers -/

/-- `failure_envelope`, or `{}`. -/
def failureEnvelope (reason : Document) : List (String × Document) :=
  match reason.1 with
  | .null => []
  | .obj _ => [("error", reason)]
  | .arr _ => [("error", reason)]
  | v => if v = .str "" then [] else [("reason", textValue (strOf v))]

/-- A call of `commit_reconciled_terminal`. -/
structure ReconcileCall where
  /-- The locks are held, the claim is as it was, and the row reads. -/
  valid : Bool
  /-- `_new_reconciliation_record`. -/
  fresh : Mapping
  decision : Mapping
  /-- `_entry_completion_authority`. -/
  authority : Option Mapping
  /-- `_completion_decision_is_deferred` of the authority. -/
  deferred : Bool
  /-- What the reconciliation checked. -/
  reconciliation : Document

namespace ReconcileCall

variable (c : ReconcileCall)

/-- A field of the authority, or else of the decision, where it is true; else the default. -/
def decided (key : String) (default : Document) : Document :=
  let own := if (c.decision.field key).1.truthy = true then c.decision.field key else default
  match c.authority with
  | some authority => if (authority.field key).1.truthy = true then authority.field key else own
  | none => own

/-- The state that is decided. -/
def state : String := strOf (c.decided "state" (textValue "worker_dead")).1

/-- The reason that is decided. -/
def reason : Document := c.decided "reason" (textValue "claim_reconciliation")

/-- `decision.get("salvage_required")`, where the authority is laid over the decision. -/
def salvageRequired : Bool :=
  match c.authority.bind (·.get? "salvage_required") with
  | some v => v.truthy
  | none => (c.decision.field "salvage_required").1.truthy

/-- `salvage_required`, where it is. -/
def salvageFields : List (String × Document) :=
  if c.salvageRequired = true then [("salvage_required", boolValue true)] else []

end ReconcileCall

/-- The row that `commit_reconciled_terminal` writes over an open one. -/
def reconciledRow (c : ReconcileCall) (v : Winner) (record : Mapping) : Mapping :=
  let record := (preserveFirstTerminalTime record v.terminalAt).1.update
    ([("state", textValue c.state), ("terminal_state", textValue v.terminalState),
      ("liveness_state", textValue (terminalLivenessState c.state)),
      ("worker_still_alive", boolValue false)] ++ c.salvageFields)
  let outcome := Mapping.empty.update
    ([("terminal_state", textValue v.terminalState), ("reconciliation", c.reconciliation)] ++
      failureEnvelope c.reason)
  record.update ([("outcome", outcome.document)] ++ failureEnvelope c.reason ++ v.identityFields)

/-- The row that it writes over one that is closed. -/
def recommittedRow (v : Winner) (record : Mapping) : Mapping :=
  (preserveFirstTerminalTime (record.update v.identityFields) v.terminalAt).1

/-- A call of `_commit_abandoned_dispatch`. -/
structure AbandonCall where
  state : String
  reason : Document
  marker : Option Document
  /-- What the evaluation found. -/
  reconciliation : Document

/-- The row where another classifier was first. -/
def yieldedRow (v : Winner) (record : Mapping) : Mapping :=
  let outcome := entries (outcomeOf v.observation)
  let record := (((record.pop "reason").pop "error").pop "terminal_marker").update
    ([("state", textValue v.state), ("terminal_state", textValue v.terminalState),
      ("liveness_state", textValue (terminalLivenessState v.state)),
      ("worker_still_alive", v.observation.field "worker_still_alive"),
      ("outcome", (Mapping.empty.update
        (("terminal_state", textValue v.terminalState) :: outcome)).document)] ++ outcome)
  if v.headlineFields = [] then record.pop "headline" else record.update v.headlineFields

/-- The row with the verdict of the call. -/
def abandonedRow (c : AbandonCall) (v : Winner) (record : Mapping) : Mapping :=
  (record.pop "error").update (givenField "terminal_marker" c.marker ++
    [("state", textValue v.state), ("terminal_state", textValue v.terminalState),
      ("liveness_state", textValue (terminalLivenessState v.state)),
      ("worker_still_alive", boolValue false), ("reason", c.reason),
      ("outcome", (Mapping.empty.update
        [("terminal_state", textValue v.terminalState), ("reason", c.reason),
          ("reconciliation", c.reconciliation)]).document)])

/-- The row that `_commit_abandoned_dispatch` writes. -/
def abandonedDispatchRow (w : World) (c : AbandonCall) (v : Winner) (record : Mapping) : Mapping :=
  let (record, ended) := preserveFirstTerminalTime record v.terminalAt
  let record := if v.idempotent = true then yieldedRow v record else abandonedRow c v record
  let record := record.update v.identityFields
  record.update (givenField "elapsed_s" (w.elapsedSeconds record ended))

/-- A writer. -/
inductive Writer
  | reconcile (c : ReconcileCall)
  | abandon (c : AbandonCall)
  | finish (a : FinishArgs)

namespace Writer

/-- The row that a writer begins with. -/
def base (stored : Option Mapping) : Writer → Option Mapping
  | reconcile c => some (stored.getD c.fresh)
  | _ => stored

/-- What a writer makes of the row, given what the journal committed. -/
def row (w : World) (v : Winner) (record : Mapping) : Writer → Option Mapping
  | reconcile c =>
    if c.valid = false then none
    else if terminalKey record ∉ openTerminalKeys then some (recommittedRow v record)
    else if c.authority.isSome = true ∧ c.deferred = true then none
    else if terminalStateOf (.str c.state) c.reason.1 ∈ openTerminalKeys then none
    else some (reconciledRow c v record)
  | abandon c =>
    if terminalStateOf (.str c.state) c.reason.1 ∈ openTerminalKeys then none
    else some (abandonedDispatchRow w c v record)
  | finish a => if a.refused v then none else some (finishedRow w a v record)

/-- The row that a writer hands to `write_record`, if it writes. -/
def written (w : World) (v : Winner) (stored : Option Mapping) (writer : Writer) :
    Option Mapping :=
  (writer.base stored).bind fun record => writer.row w v record

end Writer

/-! ### One story -/

/-- The fields of a cause. -/
def causeKeys : List String := ["reason", "error"]

/-- **The row tells what the winner observed**: the cause, on the row and in its outcome, and
whether the worker was alive. -/
structure Told (v : Winner) (row : Mapping) : Prop where
  cause : ∀ key ∈ causeKeys, (row.field key).1 = ((outcomeOf v.observation).field key).1
  outcome : ∀ key ∈ causeKeys,
    ((outcomeOf row).field key).1 = ((outcomeOf v.observation).field key).1
  alive : (row.field "worker_still_alive").1 = (v.observation.field "worker_still_alive").1

/-- **The row tells one story.** -/
structure OneStory (v : Winner) (row : Mapping) : Prop where
  terminal : (row.field "terminal_state").1 = .str v.terminalState
  state : terminalStateOf (row.field "state").1 .null = v.terminalState
  told : v.idempotent = true → Told v row

/-- The row has no cause that the fields lack. -/
def NoOther (record : Mapping) (fields : List (String × Document)) : Prop :=
  ∀ key ∈ causeKeys, Dictionary.get? fields key = none → (record.field key).1 = .null

/-- **The condition** on the decision, the winner and the row before. -/
def Writer.Agrees (v : Winner) (record : Mapping) : Writer → Prop
  | reconcile c =>
    if terminalKey record ∉ openTerminalKeys then OneStory v record
    else terminalStateOf (.str c.state) .null = v.terminalState ∧
      (v.idempotent = true →
        (∀ key ∈ causeKeys, ((Mapping.empty.update (failureEnvelope c.reason)).field key).1 =
          ((outcomeOf v.observation).field key).1) ∧
        NoOther record (failureEnvelope c.reason) ∧
        (v.observation.field "worker_still_alive").1 = .bool false)
  | abandon _ => terminalStateOf (.str v.state) .null = v.terminalState
  | finish a =>
    terminalStateOf (if v.idempotent = true ∧ terminalKey record = v.terminalState then
        (record.field "state").1 else .str v.state) .null = v.terminalState ∧
      (v.idempotent = true → NoOther record (entries (outcomeOf v.observation)) ∧
        (a.workerStillAlive.getD (record.field "worker_still_alive")).1 =
          (v.observation.field "worker_still_alive").1)

/-! ### What the lists of fields have -/

variable {w : World} {v : Winner} {record : Mapping} {key : String}

/-- The fields of a row that tell its story. -/
def storyKeys : List String :=
  ["state", "terminal_state", "reason", "error", "outcome", "worker_still_alive"]

theorem storyKeys_cases (h : key ∈ storyKeys) : key ∈ causeKeys ∨ key ∉ causeKeys ∧
    (key = "state" ∨ key = "terminal_state" ∨ key = "outcome" ∨ key = "worker_still_alive") := by
  have hall : ∀ key ∈ storyKeys, key ∈ causeKeys ∨ key ∉ causeKeys ∧
      (key = "state" ∨ key = "terminal_state" ∨ key = "outcome" ∨ key = "worker_still_alive") := by
    decide
  exact hall key h

theorem get?_failureEnvelope (reason : Document) (h : key ∉ causeKeys) :
    Dictionary.get? (failureEnvelope reason) key = none := by
  have hreason : key ≠ "reason" := fun heq => h (heq ▸ by decide)
  have herror : key ≠ "error" := fun heq => h (heq ▸ by decide)
  rw [Dictionary.get?_eq_none_iff]
  intro hmem
  unfold failureEnvelope at hmem
  split at hmem
  · cases hmem
  · exact herror (List.mem_singleton.mp hmem)
  · exact herror (List.mem_singleton.mp hmem)
  · split at hmem
    · cases hmem
    · exact hreason (List.mem_singleton.mp hmem)

theorem get?_salvageFields (c : ReconcileCall) (h : key ∈ storyKeys) :
    Dictionary.get? c.salvageFields key = none := by
  have hsalvage : key ≠ "salvage_required" := fun heq => absurd (heq ▸ h) (by decide)
  unfold ReconcileCall.salvageFields
  split
  · rw [Dictionary.get?_singleton, if_neg hsalvage]
  · rfl

theorem get?_identityFields (v : Winner) (h : key ∈ storyKeys) :
    Dictionary.get? v.identityFields key = none := by
  rw [Dictionary.get?_eq_none_iff]
  intro hmem
  have hkeys : ∀ key ∈ storyKeys,
      key ∉ ["attempt_id", "transition_id", "terminal_event_uuid"] := by decide
  exact hkeys key h hmem

theorem get?_headlineFields (v : Winner) (h : key ∈ storyKeys) :
    Dictionary.get? v.headlineFields key = none := by
  have hheadline : key ≠ "headline" := fun heq => absurd (heq ▸ h) (by decide)
  unfold Winner.headlineFields
  simp only
  split
  · rfl
  · rw [Dictionary.get?_singleton, if_neg hheadline]

theorem get?_givenField (name : String) (v : Option Document) :
    Dictionary.get? (givenField name v) key = if key = name then v else none := by
  cases v with
  | none => exact (ite_self none).symm
  | some v => exact Dictionary.get?_singleton (name, v)

theorem get?_entries (m : Mapping) (key : String) :
    (Dictionary.get? (entries m) key).map Subtype.val = m.get? key := by
  have hnodup : ((entries m).map Prod.fst).Nodup := by
    have hm := m.2
    rw [Value.wellFormed, Bool.and_eq_true, decide_eq_true_eq] at hm
    rw [map_fst_entries]
    exact hm.1
  cases hget : m.get? key with
  | none =>
    rw [Dictionary.get?_eq_none_iff.mpr, Option.map_none]
    rw [map_fst_entries]
    intro hmem
    obtain ⟨field, hfield, rfl⟩ := List.mem_map.mp hmem
    have hne := List.lookup_eq_none_iff.mp hget field hfield
    exact bne_iff_ne.mp hne rfl
  | some value =>
    obtain ⟨before, after, hsplit, -⟩ := List.lookup_eq_some_iff.mp hget
    have hfield : (key, value) ∈ m.1 := by
      rw [hsplit]
      exact List.mem_append_right _ List.mem_cons_self
    have hmem : (key, m.field key) ∈ entries m := List.mem_map.mpr ⟨_, hfield, rfl⟩
    rw [(Dictionary.get?_eq_some_iff hnodup).mpr hmem, Option.map_some, Mapping.field_val, hget]
    rfl

theorem get?_outcome (v : Winner) (h : key ∉ causeKeys) :
    Dictionary.get? (entries (outcomeOf v.observation)) key = none := by
  rw [Dictionary.get?_eq_none_iff, map_fst_entries]
  intro hmem
  obtain ⟨field, hfield, rfl⟩ := List.mem_map.mp hmem
  have hkeys : ∀ key ∈ ["error", "reason"], key ∈ causeKeys := by decide
  exact h (hkeys _ (v.envelope field hfield))

theorem get?_causeFields (v : Winner) (h : key ∈ storyKeys) :
    Dictionary.get? v.causeFields key = Dictionary.get? (entries (outcomeOf v.observation)) key := by
  have hprelaunch : key ≠ "prelaunch_failure" := fun heq => absurd (heq ▸ h) (by decide)
  have hlimits : Dictionary.get? v.limitValues key = none := by
    rw [Dictionary.get?_eq_none_iff]
    unfold Winner.limitValues
    simp only
    split
    · rw [List.map_map]
      intro hmem
      have hkeys : ∀ key ∈ storyKeys, key ∉ limitFields.map id := by decide
      exact hkeys key h hmem
    · exact List.not_mem_nil
  have hnone : Dictionary.get? v.prelaunchFields key = none := by
    unfold Winner.prelaunchFields
    split
    · rw [Dictionary.get?_singleton, if_neg hprelaunch]
    · rfl
  unfold Winner.causeFields
  rw [Dictionary.get?_append, Dictionary.get?_append, hlimits, hnone]
  rfl

theorem field_preserve (record : Mapping) (terminalAt : Value) (h : key ≠ "ended_at") :
    (preserveFirstTerminalTime record terminalAt).1.get? key = record.get? key := by
  unfold preserveFirstTerminalTime
  split
  · rfl
  · split
    · exact record.get?_set_of_ne h _
    · rfl

/-! ### The rows that are written -/

/-- **A field of the row that the drain writes.** -/
theorem get?_reconciledRow (c : ReconcileCall) (h : key ∈ storyKeys) :
    (reconciledRow c v record).get? key =
      if key = "state" then some (.str c.state)
      else if key = "terminal_state" then some (.str v.terminalState)
      else if key = "worker_still_alive" then some (.bool false)
      else if key = "outcome" then some (Mapping.empty.update
        ([("terminal_state", textValue v.terminalState), ("reconciliation", c.reconciliation)] ++
          failureEnvelope c.reason)).document.1
      else ((Dictionary.get? (failureEnvelope c.reason) key).map Subtype.val).or
        (record.get? key) := by
  have hend : key ≠ "ended_at" := fun heq => absurd (heq ▸ h) (by decide)
  unfold reconciledRow
  simp only [Mapping.get?_update, Dictionary.get?_append, get?_identityFields v h,
    get?_salvageFields c h, field_preserve record v.terminalAt hend, Dictionary.get?_cons]
  rcases storyKeys_cases h with hcause | ⟨hcause, hkey⟩
  · simp only [causeKeys, List.mem_cons, List.not_mem_nil, or_false] at hcause
    rcases hcause with rfl | rfl <;> simp [Dictionary.get?]
  · rw [get?_failureEnvelope c.reason hcause]
    rcases hkey with rfl | rfl | rfl | rfl <;> simp [Dictionary.get?, textValue, boolValue]

/-- **A field of the row where another classifier was first.** -/
theorem get?_yieldedRow (h : key ∈ storyKeys) :
    (yieldedRow v record).get? key =
      if key = "state" then some (.str v.state)
      else if key = "terminal_state" then some (.str v.terminalState)
      else if key = "worker_still_alive" then
        some (v.observation.field "worker_still_alive").1
      else if key = "outcome" then some (Mapping.empty.update (("terminal_state",
        textValue v.terminalState) :: entries (outcomeOf v.observation))).document.1
      else (outcomeOf v.observation).get? key := by
  have hheadline : key ≠ "headline" := fun heq => absurd (heq ▸ h) (by decide)
  have hstays (row : Mapping) :
      (if v.headlineFields = [] then row.pop "headline" else row.update v.headlineFields).get? key =
        row.get? key := by
    split
    · exact row.get?_pop_of_ne hheadline
    · rw [Mapping.get?_update, get?_headlineFields v h]
      rfl
  unfold yieldedRow
  simp only [hstays, Mapping.get?_update, Dictionary.get?_append, Dictionary.get?_cons]
  rcases storyKeys_cases h with hcause | ⟨hcause, hkey⟩
  · rw [← get?_entries (outcomeOf v.observation) key]
    simp only [causeKeys, List.mem_cons, List.not_mem_nil, or_false] at hcause
    rcases hcause with rfl | rfl <;> simp [Dictionary.get?, Mapping.get?_pop]
  · rw [get?_outcome v hcause]
    rcases hkey with rfl | rfl | rfl | rfl <;> simp [Dictionary.get?, textValue]

theorem get?_abandonedRow (c : AbandonCall) (h : key ∈ ["state", "terminal_state"]) :
    (abandonedRow c v record).get? key =
      if key = "state" then some (.str v.state) else some (.str v.terminalState) := by
  unfold abandonedRow
  simp only [Mapping.get?_update, Dictionary.get?_append, Dictionary.get?_cons, get?_givenField]
  simp only [List.mem_cons, List.not_mem_nil, or_false] at h
  rcases h with rfl | rfl <;> simp [Dictionary.get?, textValue]

theorem get?_abandonedDispatchRow (c : AbandonCall) (h : key ∈ storyKeys) :
    (abandonedDispatchRow w c v record).get? key =
      (if v.idempotent = true then
          yieldedRow v (preserveFirstTerminalTime record v.terminalAt).1
        else abandonedRow c v (preserveFirstTerminalTime record v.terminalAt).1).get? key := by
  have helapsed : key ≠ "elapsed_s" := fun heq => absurd (heq ▸ h) (by decide)
  unfold abandonedDispatchRow
  simp only [Mapping.get?_update, get?_identityFields v h, get?_givenField, if_neg helapsed]
  rfl

/-- **A field of the row that `cmd_finish` writes.** -/
theorem get?_finishedRow (a : FinishArgs) (h : key ∈ storyKeys) :
    (finishedRow w a v record).get? key =
      if key = "state" then some (if v.idempotent = true ∧ terminalKey record = v.terminalState
        then (record.field "state").1 else .str v.state)
      else if key = "terminal_state" then some (.str v.terminalState)
      else if key = "worker_still_alive" then
        (a.workerStillAlive.map Subtype.val).or (record.get? "worker_still_alive")
      else if key = "outcome" then some (((Mapping.empty.set "terminal_state"
        (textValue v.terminalState)).update v.causeFields).document.1)
      else ((outcomeOf v.observation).get? key).or (record.get? key) := by
  have hend : key ≠ "ended_at" := fun heq => absurd (heq ▸ h) (by decide)
  have helapsed : key ≠ "elapsed_s" := fun heq => absurd (heq ▸ h) (by decide)
  unfold finishedRow
  simp only [Mapping.get?_update, Dictionary.get?_append, Dictionary.get?_cons,
    get?_identityFields v h, get?_headlineFields v h, get?_causeFields v h, get?_givenField,
    if_neg helapsed, field_preserve _ v.terminalAt hend]
  rcases storyKeys_cases h with hcause | ⟨hcause, hkey⟩
  · rw [← get?_entries (outcomeOf v.observation) key]
    simp only [causeKeys, List.mem_cons, List.not_mem_nil, or_false] at hcause
    rcases hcause with rfl | rfl <;> simp [Dictionary.get?, Mapping.get?_set_of_ne]
  · rw [get?_outcome v hcause]
    rcases hkey with rfl | rfl | rfl | rfl
    · by_cases hkeep : v.idempotent = true ∧ terminalKey record = v.terminalState
      · simp [Dictionary.get?, Mapping.get?_set, hkeep]
      · simp only [hkeep, if_false, Mapping.get?_set]
        simp [Dictionary.get?, textValue]
    all_goals simp [Dictionary.get?, textValue, Mapping.get?_set_of_ne]

/-! ### When the row tells one story -/

theorem causeKeys_sub (h : key ∈ causeKeys) : key ∈ storyKeys := by
  have hall : ∀ key ∈ causeKeys, key ∈ storyKeys := by decide
  exact hall key h

theorem OneStory.of_same {row row' : Mapping} (h : ∀ key ∈ storyKeys, row'.get? key = row.get? key)
    (hstory : OneStory v row) : OneStory v row' := by
  have hfield (key : String) (hkey : key ∈ storyKeys) :
      (row'.field key).1 = (row.field key).1 := by
    rw [Mapping.field_val, Mapping.field_val, h key hkey]
  have houtcome : outcomeOf row' = outcomeOf row := by
    unfold outcomeOf
    rw [hfield "outcome" (by decide)]
  refine ⟨(hfield "terminal_state" (by decide)).trans hstory.terminal, ?_, fun hi => ?_⟩
  · rw [hfield "state" (by decide)]
    exact hstory.state
  · have ht := hstory.told hi
    refine ⟨fun key hkey => ?_, ?_, (hfield "worker_still_alive" (by decide)).trans ht.alive⟩
    · exact (hfield key (causeKeys_sub hkey)).trans (ht.cause key hkey)
    · rw [houtcome]
      exact ht.outcome

theorem oneStory_congr {row row' : Mapping}
    (h : ∀ key ∈ storyKeys, row'.get? key = row.get? key) : OneStory v row' ↔ OneStory v row :=
  ⟨OneStory.of_same fun key hkey => (h key hkey).symm, OneStory.of_same h⟩

theorem get?_writtenRow (stored : Option Mapping) (h : key ∈ storyKeys) :
    (writtenRow w stored record).get? key = record.get? key := by
  have hkeys : ∀ key ∈ storyKeys,
      key ≠ "project_root" ∧ key ≠ "ended_at" ∧ key ≠ "updated_at" := by decide
  obtain ⟨hroot, hend, hupdated⟩ := hkeys key h
  unfold writtenRow
  simp only
  rw [Mapping.get?_set_of_ne _ hupdated]
  split
  · rw [Mapping.get?_set_of_ne _ hend]
    split
    · rfl
    · exact record.get?_set_of_ne hroot _
  · split
    · rfl
    · exact record.get?_set_of_ne hroot _

theorem get?_recommittedRow (h : key ∈ storyKeys) :
    (recommittedRow v record).get? key = record.get? key := by
  have hend : key ≠ "ended_at" := fun heq => absurd (heq ▸ h) (by decide)
  unfold recommittedRow
  rw [field_preserve _ _ hend, Mapping.get?_update, get?_identityFields v h]
  rfl

theorem told_cause_iff (expected : Mapping) {fields : List (String × Document)} {row : Mapping}
    (hrow : ∀ key ∈ causeKeys, row.get? key =
      ((Dictionary.get? fields key).map Subtype.val).or (record.get? key))
    (houtcome : ∀ key ∈ causeKeys, (outcomeOf row).get? key =
      (Dictionary.get? fields key).map Subtype.val) :
    ((∀ key ∈ causeKeys, (row.field key).1 = (expected.field key).1) ∧
        ∀ key ∈ causeKeys, ((outcomeOf row).field key).1 = (expected.field key).1) ↔
      (∀ key ∈ causeKeys, ((outcomeOf row).field key).1 = (expected.field key).1) ∧
        NoOther record fields := by
  constructor
  · rintro ⟨hcause, hout⟩
    refine ⟨hout, fun key hkey hnone => ?_⟩
    have h₁ := hcause key hkey
    have h₂ := hout key hkey
    rw [Mapping.field_val, hrow key hkey, hnone] at h₁
    rw [Mapping.field_val, houtcome key hkey, hnone] at h₂
    rw [Mapping.field_val]
    exact h₁.trans h₂.symm
  · rintro ⟨hout, hother⟩
    refine ⟨fun key hkey => ?_, hout⟩
    have h₂ := hout key hkey
    rw [Mapping.field_val, houtcome key hkey] at h₂
    rw [Mapping.field_val, hrow key hkey, ← h₂]
    cases hget : Dictionary.get? fields key with
    | none =>
      have hnull := hother key hkey hget
      rw [Mapping.field_val] at hnull
      exact hnull
    | some value => rfl

theorem outcomeOf_of_get? {row outcome : Mapping}
    (h : row.get? "outcome" = some outcome.document.1) : outcomeOf row = outcome := by
  unfold outcomeOf
  have hmapping : asMapping? outcome.document.1 = some outcome := dif_pos outcome.2
  rw [Mapping.field_val, h, Option.getD_some, hmapping]
  rfl

theorem oneStory_iff {row : Mapping} {state : Value}
    (hterminal : row.get? "terminal_state" = some (.str v.terminalState))
    (hstate : row.get? "state" = some state) :
    OneStory v row ↔
      terminalStateOf state .null = v.terminalState ∧ (v.idempotent = true → Told v row) := by
  have hvalue : (row.field "state").1 = state := by
    rw [Mapping.field_val, hstate]
    rfl
  constructor
  · exact fun h => ⟨hvalue ▸ h.state, h.told⟩
  · rintro ⟨hagrees, htold⟩
    refine ⟨?_, hvalue.symm ▸ hagrees, htold⟩
    rw [Mapping.field_val, hterminal]
    rfl

theorem told_iff {fields : List (String × Document)} {row : Mapping}
    (hrow : ∀ key ∈ causeKeys, row.get? key =
      ((Dictionary.get? fields key).map Subtype.val).or (record.get? key))
    (houtcome : ∀ key ∈ causeKeys, (outcomeOf row).get? key =
      (Dictionary.get? fields key).map Subtype.val) :
    Told v row ↔
      (∀ key ∈ causeKeys, ((outcomeOf row).field key).1 =
          ((outcomeOf v.observation).field key).1) ∧
        NoOther record fields ∧
        (row.field "worker_still_alive").1 = (v.observation.field "worker_still_alive").1 := by
  have hcauses := told_cause_iff (outcomeOf v.observation) hrow houtcome
  constructor
  · intro ht
    obtain ⟨hout, hother⟩ := hcauses.mp ⟨ht.cause, ht.outcome⟩
    exact ⟨hout, hother, ht.alive⟩
  · rintro ⟨hout, hother, halive⟩
    obtain ⟨hcause, hout⟩ := hcauses.mpr ⟨hout, hother⟩
    exact ⟨hcause, hout, halive⟩

/-- **The drain** tells one story where its decision is the winner's. -/
theorem oneStory_reconciledRow (c : ReconcileCall) :
    OneStory v (reconciledRow c v record) ↔
      terminalStateOf (.str c.state) .null = v.terminalState ∧
        (v.idempotent = true →
          (∀ key ∈ causeKeys, ((Mapping.empty.update (failureEnvelope c.reason)).field key).1 =
            ((outcomeOf v.observation).field key).1) ∧
          NoOther record (failureEnvelope c.reason) ∧
          (v.observation.field "worker_still_alive").1 = .bool false) := by
  have houtcome : outcomeOf (reconciledRow c v record) = Mapping.empty.update
      ([("terminal_state", textValue v.terminalState), ("reconciliation", c.reconciliation)] ++
        failureEnvelope c.reason) := outcomeOf_of_get? (get?_reconciledRow c (by decide))
  have hempty (key : String) : Mapping.empty.get? key = none := rfl
  have hfields : ∀ key ∈ causeKeys, (outcomeOf (reconciledRow c v record)).get? key =
      (Dictionary.get? (failureEnvelope c.reason) key).map Subtype.val := by
    intro key hkey
    have hterminal : key ≠ "terminal_state" := fun heq => absurd (heq ▸ hkey) (by decide)
    have hreconciliation : key ≠ "reconciliation" := fun heq => absurd (heq ▸ hkey) (by decide)
    rw [houtcome, Mapping.get?_update, Dictionary.get?_append, Dictionary.get?_cons,
      Dictionary.get?_singleton, if_neg hterminal, if_neg hreconciliation, hempty]
    simp only [Option.or_none]
  have hsame : ∀ key ∈ causeKeys, ((outcomeOf (reconciledRow c v record)).field key).1 =
      ((Mapping.empty.update (failureEnvelope c.reason)).field key).1 := by
    intro key hkey
    rw [Mapping.field_val, Mapping.field_val, hfields key hkey, Mapping.get?_update, hempty,
      Option.or_none]
  have halive : ((reconciledRow c v record).field "worker_still_alive").1 = .bool false := by
    rw [Mapping.field_val, get?_reconciledRow c (by decide)]
    rfl
  have hcause : ∀ key ∈ causeKeys, (reconciledRow c v record).get? key =
      ((Dictionary.get? (failureEnvelope c.reason) key).map Subtype.val).or (record.get? key) := by
    intro key hkey
    rw [get?_reconciledRow c (causeKeys_sub hkey)]
    simp only [causeKeys, List.mem_cons, List.not_mem_nil, or_false] at hkey
    rcases hkey with rfl | rfl <;> rfl
  rw [oneStory_iff (get?_reconciledRow c (by decide)) (get?_reconciledRow c (by decide)),
    told_iff hcause hfields, halive]
  refine and_congr_right fun _ => imp_congr_right fun _ => and_congr ?_ (and_congr_right fun _ => eq_comm)
  exact forall₂_congr fun key hkey => by rw [hsame key hkey]

theorem told_yieldedRow : Told v (yieldedRow v record) := by
  have houtcome : outcomeOf (yieldedRow v record) = Mapping.empty.update
      (("terminal_state", textValue v.terminalState) :: entries (outcomeOf v.observation)) :=
    outcomeOf_of_get? (get?_yieldedRow (by decide))
  refine ⟨fun key hkey => ?_, fun key hkey => ?_, ?_⟩
  · rw [Mapping.field_val, Mapping.field_val, get?_yieldedRow (causeKeys_sub hkey)]
    simp only [causeKeys, List.mem_cons, List.not_mem_nil, or_false] at hkey
    rcases hkey with rfl | rfl <;> rfl
  · have hterminal : key ≠ "terminal_state" := fun heq => absurd (heq ▸ hkey) (by decide)
    rw [houtcome, Mapping.field_update, Dictionary.get?_cons, if_neg hterminal, Option.or_none,
      get?_entries, Mapping.field_val]
    have hempty : Mapping.empty.get? key = none := rfl
    rw [hempty, Option.or_none]
  · rw [Mapping.field_val, get?_yieldedRow (by decide)]
    rfl

/-- **The writer of abandoned dispatches** tells the winner's story. -/
theorem oneStory_abandonedDispatchRow (c : AbandonCall) :
    OneStory v (abandonedDispatchRow w c v record) ↔
      terminalStateOf (.str v.state) .null = v.terminalState := by
  cases hidempotent : v.idempotent with
  | false =>
    have hget (key : String) (hkey : key ∈ ["state", "terminal_state"]) :
        (abandonedDispatchRow w c v record).get? key =
          if key = "state" then some (.str v.state) else some (.str v.terminalState) := by
      have hstory : ∀ key ∈ ["state", "terminal_state"], key ∈ storyKeys := by decide
      rw [get?_abandonedDispatchRow c (hstory key hkey), hidempotent,
        if_neg Bool.false_ne_true, get?_abandonedRow c hkey]
    rw [oneStory_iff (hget "terminal_state" (by decide)) (hget "state" (by decide)), hidempotent]
    simp
  | true =>
    have hget (key : String) (hkey : key ∈ storyKeys) :
        (abandonedDispatchRow w c v record).get? key =
          (yieldedRow v (preserveFirstTerminalTime record v.terminalAt).1).get? key := by
      rw [get?_abandonedDispatchRow c hkey, hidempotent, if_pos rfl]
    rw [oneStory_congr hget, oneStory_iff (get?_yieldedRow (by decide))
      (get?_yieldedRow (by decide))]
    exact and_iff_left fun _ => told_yieldedRow

/-- **`cmd_finish`** tells one story where the row has no other cause, and the caller saw the
worker as the winner did. -/
theorem oneStory_finishedRow (a : FinishArgs) :
    OneStory v (finishedRow w a v record) ↔
      terminalStateOf (if v.idempotent = true ∧ terminalKey record = v.terminalState then
          (record.field "state").1 else .str v.state) .null = v.terminalState ∧
        (v.idempotent = true → NoOther record (entries (outcomeOf v.observation)) ∧
          (a.workerStillAlive.getD (record.field "worker_still_alive")).1 =
            (v.observation.field "worker_still_alive").1) := by
  have houtcome : outcomeOf (finishedRow w a v record) =
      (Mapping.empty.set "terminal_state" (textValue v.terminalState)).update v.causeFields :=
    outcomeOf_of_get? (get?_finishedRow a (by decide))
  have hfields : ∀ key ∈ causeKeys, (outcomeOf (finishedRow w a v record)).get? key =
      (Dictionary.get? (entries (outcomeOf v.observation)) key).map Subtype.val := by
    intro key hkey
    have hterminal : key ≠ "terminal_state" := fun heq => absurd (heq ▸ hkey) (by decide)
    rw [houtcome, Mapping.get?_update, get?_causeFields v (causeKeys_sub hkey),
      Mapping.get?_set_of_ne _ hterminal]
    exact Option.or_none
  have hcause : ∀ key ∈ causeKeys, (finishedRow w a v record).get? key =
      ((Dictionary.get? (entries (outcomeOf v.observation)) key).map Subtype.val).or
        (record.get? key) := by
    intro key hkey
    rw [get?_finishedRow a (causeKeys_sub hkey), get?_entries]
    simp only [causeKeys, List.mem_cons, List.not_mem_nil, or_false] at hkey
    rcases hkey with rfl | rfl <;> rfl
  have hout : ∀ key ∈ causeKeys, ((outcomeOf (finishedRow w a v record)).field key).1 =
      ((outcomeOf v.observation).field key).1 := by
    intro key hkey
    rw [Mapping.field_val, Mapping.field_val, hfields key hkey, get?_entries]
  have halive : ((finishedRow w a v record).field "worker_still_alive").1 =
      (a.workerStillAlive.getD (record.field "worker_still_alive")).1 := by
    rw [Mapping.field_val, get?_finishedRow a (by decide)]
    cases a.workerStillAlive with
    | none => exact (record.field_val _).symm
    | some value => rfl
  rw [oneStory_iff (get?_finishedRow a (by decide)) (get?_finishedRow a (by decide)),
    told_iff hcause hfields, halive]
  exact and_congr_right fun _ => imp_congr_right fun _ => and_iff_right hout

/-- The row of a dispatch that runs. -/
def runningRow : Mapping :=
  Mapping.empty.update [("dispatch_id", textValue "d"), ("state", textValue "running")]

/-- The verdict of the watcher: the worker completed. -/
def watcherVerdict : Winner where
  attemptId := "a"
  transitionId := "tr"
  eventUuid := "event"
  terminalState := "complete"
  observation := Mapping.empty.update
    [("state", textValue "complete"), ("worker_still_alive", boolValue false)]
  terminalAt := .str "2026-01-01T00:00:00Z"
  idempotent := true
  envelope := completeWinner.envelope

/-- The drain finds the claim without a worker. -/
def missedWorker : ReconcileCall where
  valid := true
  fresh := .empty
  decision := Mapping.empty.update
    [("state", textValue "worker_dead"), ("reason", textValue "claim_reconciliation")]
  authority := none
  deferred := false
  reconciliation := textValue "drain_claim_recovery"

/-- What the writers read beside the row. -/
def plainWorld : World where
  clock := "2026-01-02T00:00:00Z"
  canonicalRoot := strOf
  elapsedSeconds := fun _ _ => none

end GoalFlight.Ledger.Fields
