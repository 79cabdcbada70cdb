import GoalFlight.Mailbox.Waits

/-!
# Mailbox: the exemption of a waiting worker

A worker that waits for a reply is not idle.  The watcher takes that from the latest arm of the
dispatch, and checks the row as if anybody could have written it: the times, the owner of the wait,
the question and the reply.
-/

namespace GoalFlight.Mailbox

/-- What the watcher knows when it looks. -/
structure Observer where
  nowNs : ℤ
  workerPid : Option ℤ
  workerPgid : Option ℤ
  /-- `process_identity_matches`. -/
  identityMatches : ℤ → String → Option Bool
  /-- `process_group_id`. -/
  processGroupId : ℤ → Option ℤ
  isalpha : Char → Bool
  isalnum : Char → Bool
  /-- The `waiter_pgid` of the context of a row, where it is an integer. -/
  waiterPgid : Row → Option ℤ

/-- A wait that exempts the worker. -/
structure ActiveWait where
  waitId : String
  seq : ℕ
  startedAwakeMonoNs : ℤ
  deadlineAwakeMonoNs : ℤ
  remainingNs : ℤ
  questionKind : String
  questionText : String
  reply : Option Row
  waiterPid : ℤ
  waiterStartToken : String
  waiterPgid : Option ℤ
  questionMarkerText : String

namespace Observer

variable (o : Observer)

/-- The wait is of the worker: its waiter is in the worker's process group, or is the worker where
groups are not known. -/
def Binds (arm : Row) (pid : ℤ) : Prop :=
  match o.workerPgid with
  | some group => 0 < group ∧ o.waiterPgid arm = some group ∧ o.processGroupId pid = some group
  | none => ∀ worker, o.workerPid = some worker → pid = worker

instance (arm : Row) (pid : ℤ) : Decidable (o.Binds arm pid) := by
  unfold Binds
  split
  · infer_instance
  · exact match o.workerPid with
      | none => isTrue nofun
      | some worker => decidable_of_iff (pid = worker) (by simp)

/-- The kind of a question, as it may be in a row. -/
def isQuestionKind (kind : String) : Bool :=
  kind.length ≤ 64 && kind.toList.head?.any o.isalpha &&
    kind.toList.all fun c => (o.isalnum c || c = '_' || c = '-') && c ≠ '\r' && c ≠ '\n'

/-- `active_worker_wait`. -/
def activeWorkerWait (rows : List Row) (dispatchId : String) : Option ActiveWait :=
  match latestWorkerWaitArm rows dispatchId with
  | none => none
  | some arm =>
    let waitId := arm.questionId.getD ""
    match arm.context.deadlineAwakeMonoNs with
    | none => none
    | some deadline =>
      let effective := min deadline (arm.awakeMonoNs + maxWorkerWaitNs)
      if waitId = "" ∨ arm.awakeMonoNs ≤ 0 ∨ deadline ≤ arm.awakeMonoNs then none
      else if effective ≤ o.nowNs then none
      else if (workerWaitSettlement rows waitId arm.seq).isSome then none
      else
        match arm.context.waiterPid, arm.context.waiterStartToken with
        | some pid, some token =>
          if pid ≤ 0 ∨ token = "" ∨ o.identityMatches pid token ≠ some true then none
          else if ¬ o.Binds arm pid then none
          else
            let kind := arm.context.questionKind.getD ""
            let text := Capacity.strip (arm.context.questionText.getD "")
            if ¬ o.isQuestionKind kind ∨ text = "" ∨ '\n' ∈ text.toList ∨ '\r' ∈ text.toList
            then none
            else
              let wait (reply : Option Row) : ActiveWait :=
                { waitId, seq := arm.seq, startedAwakeMonoNs := arm.awakeMonoNs
                  deadlineAwakeMonoNs := effective
                  remainingNs := max 0 (effective - o.nowNs)
                  questionKind := kind, questionText := text, reply, waiterPid := pid
                  waiterStartToken := token, waiterPgid := o.waiterPgid arm
                  questionMarkerText :=
                    dispatchId ++ " — " ++ text ++ " [wait-id:" ++ waitId ++ "]" }
              match workerWaitReplies rows dispatchId waitId arm.seq with
              | [] => some (wait none)
              | [reply] =>
                if Admissible arm reply.decision ∧ 0 < reply.awakeMonoNs then
                  some (wait (some reply))
                else none
              | _ => none
        | _, _ => none

/-! ### What counts -/

/-- **The arm counts**: what is checked of a row, but for where its start is. -/
structure Counts (rows : List Row) (dispatchId : String) (arm : Row) (deadline : ℤ) : Prop where
  latest : latestWorkerWaitArm rows dispatchId = some arm
  recorded : arm.context.deadlineAwakeMonoNs = some deadline
  times : arm.questionId.getD "" ≠ "" ∧ 0 < arm.awakeMonoNs ∧ arm.awakeMonoNs < deadline
  notOver : o.nowNs < min deadline (arm.awakeMonoNs + maxWorkerWaitNs)
  unsettled : workerWaitSettlement rows (arm.questionId.getD "") arm.seq = none
  owner : ∃ pid token, arm.context.waiterPid = some pid ∧
    arm.context.waiterStartToken = some token ∧ 0 < pid ∧ token ≠ "" ∧
      o.identityMatches pid token = some true ∧ o.Binds arm pid
  question : o.isQuestionKind (arm.context.questionKind.getD "") = true ∧
    Capacity.strip (arm.context.questionText.getD "") ≠ "" ∧
      '\n' ∉ (Capacity.strip (arm.context.questionText.getD "")).toList ∧
        '\r' ∉ (Capacity.strip (arm.context.questionText.getD "")).toList
  answer : workerWaitReplies rows dispatchId (arm.questionId.getD "") arm.seq = [] ∨
    ∃ reply, workerWaitReplies rows dispatchId (arm.questionId.getD "") arm.seq = [reply] ∧
      Admissible arm reply.decision ∧ 0 < reply.awakeMonoNs

/-- The wait is that of the arm. -/
structure IsOf (wait : ActiveWait) (arm : Row) (deadline : ℤ) : Prop where
  waitId : wait.waitId = arm.questionId.getD ""
  seq : wait.seq = arm.seq
  waiterPid : arm.context.waiterPid = some wait.waiterPid
  waiterStartToken : arm.context.waiterStartToken = some wait.waiterStartToken
  remaining : wait.remainingNs = min deadline (arm.awakeMonoNs + maxWorkerWaitNs) - o.nowNs

variable {o} {o' : Observer} {rows rows' : List Row} {dispatchId : String} {arm : Row}
  {deadline : ℤ} {wait wait' : ActiveWait}

theorem counts_of_activeWorkerWait (h : o.activeWorkerWait rows dispatchId = some wait) :
    ∃ arm deadline, o.Counts rows dispatchId arm deadline ∧ o.IsOf wait arm deadline := by
  unfold activeWorkerWait at h
  split at h
  · cases h
  rename_i arm hlatest
  dsimp only at h
  split at h
  · cases h
  rename_i deadline hdeadline
  split at h
  · cases h
  rename_i htimes
  rw [not_or, not_or, not_le, not_le] at htimes
  split at h
  · cases h
  rename_i hover
  rw [not_le] at hover
  split at h
  · cases h
  rename_i hsettled
  rw [Option.not_isSome_iff_eq_none] at hsettled
  split at h
  swap
  · cases h
  rename_i pid token hpid htoken
  split at h
  · cases h
  rename_i hlive
  rw [not_or, not_or, not_le, not_not] at hlive
  split at h
  · cases h
  rename_i hbinds
  rw [not_not] at hbinds
  split at h
  · cases h
  rename_i hquestion
  rw [not_or, not_or, not_or, not_not] at hquestion
  have howner : ∃ pid token, arm.context.waiterPid = some pid ∧
      arm.context.waiterStartToken = some token ∧ 0 < pid ∧ token ≠ "" ∧
        o.identityMatches pid token = some true ∧ o.Binds arm pid :=
    ⟨pid, token, hpid, htoken, hlive.1, hlive.2.1, hlive.2.2, hbinds⟩
  have hremaining : max 0 (min deadline (arm.awakeMonoNs + maxWorkerWaitNs) - o.nowNs) =
      min deadline (arm.awakeMonoNs + maxWorkerWaitNs) - o.nowNs :=
    max_eq_right (sub_nonneg.mpr hover.le)
  split at h
  · rename_i hnone
    cases h
    exact ⟨arm, deadline, ⟨hlatest, hdeadline, htimes, hover, hsettled, howner, hquestion,
      .inl hnone⟩, ⟨rfl, rfl, hpid, htoken, hremaining⟩⟩
  · rename_i reply hone
    split at h
    · rename_i hreply
      cases h
      exact ⟨arm, deadline, ⟨hlatest, hdeadline, htimes, hover, hsettled, howner, hquestion,
        .inr ⟨reply, hone, hreply⟩⟩, ⟨rfl, rfl, hpid, htoken, hremaining⟩⟩
    · cases h
  · cases h

theorem Counts.activeWorkerWait (h : o.Counts rows dispatchId arm deadline) :
    ∃ wait, o.activeWorkerWait rows dispatchId = some wait := by
  obtain ⟨pid, token, hpid, htoken, hpos, hne, hlive, hbinds⟩ := h.owner
  unfold Observer.activeWorkerWait
  rw [h.latest]
  dsimp only
  rw [h.recorded]
  dsimp only
  rw [if_neg (by simpa [not_or, not_le] using h.times), if_neg (not_le.mpr h.notOver),
    if_neg (by simp [h.unsettled]), hpid, htoken]
  dsimp only
  rw [if_neg (by simp [hpos, hne, hlive]), if_neg (not_not.mpr hbinds),
    if_neg (by simpa [not_or] using h.question)]
  rcases h.answer with hnone | ⟨reply, hone, hreply⟩
  · rw [hnone]
    exact ⟨_, rfl⟩
  · rw [hone]
    dsimp only
    rw [if_pos hreply]
    exact ⟨_, rfl⟩

/-! ### The bound -/

/-- **The exemption is rightful and bounded**: a wait that is returned is the newest arm of the
dispatch, unsettled and of a live waiter of the worker; no more than the maximum remains of it; and
a later observation of the same arm that returns it too is no later than the maximum. -/
def Bounded (o : Observer) (rows : List Row) (dispatchId : String) : Prop :=
  ∀ wait, o.activeWorkerWait rows dispatchId = some wait →
    (∃ arm, latestWorkerWaitArm rows dispatchId = some arm ∧ wait.seq = arm.seq ∧
      workerWaitSettlement rows wait.waitId wait.seq = none ∧
        o.identityMatches wait.waiterPid wait.waiterStartToken = some true ∧
          o.Binds arm wait.waiterPid) ∧
    wait.remainingNs ≤ maxWorkerWaitNs ∧
    ∀ (o' : Observer) rows' wait', latestWorkerWaitArm rows' dispatchId =
      latestWorkerWaitArm rows dispatchId → o'.activeWorkerWait rows' dispatchId = some wait' →
        o'.nowNs - o.nowNs ≤ maxWorkerWaitNs

/-- An arm that counts does not start after the observation, or it ends within the maximum. -/
def StartedByNow (o : Observer) (rows : List Row) (dispatchId : String) : Prop :=
  ∀ arm deadline, o.Counts rows dispatchId arm deadline →
    arm.awakeMonoNs ≤ o.nowNs ∨ deadline ≤ o.nowNs + maxWorkerWaitNs

/-- **The exemption is bounded exactly** for arms that do not start after the observation, and for
those that end within the maximum. -/
theorem bounded_iff : Bounded o rows dispatchId ↔ StartedByNow o rows dispatchId := by
  constructor
  · intro h arm deadline hcounts
    obtain ⟨wait, hwait⟩ := hcounts.activeWorkerWait
    obtain ⟨arm', deadline', hcounts', hof⟩ := counts_of_activeWorkerWait hwait
    cases hcounts.latest.symm.trans hcounts'.latest
    cases hcounts.recorded.symm.trans hcounts'.recorded
    have hremaining := (h wait hwait).2.1
    rw [hof.remaining] at hremaining
    rcases min_le_iff.mp (sub_le_iff_le_add'.mp hremaining) with hdeadline | hstart
    · exact .inr hdeadline
    · exact .inl (le_of_add_le_add_right hstart)
  · intro h wait hwait
    obtain ⟨arm, deadline, hcounts, hof⟩ := counts_of_activeWorkerWait hwait
    obtain ⟨pid, token, hpid, htoken, -, -, hlive, hbinds⟩ := hcounts.owner
    cases hpid.symm.trans hof.waiterPid
    cases htoken.symm.trans hof.waiterStartToken
    have heffective : min deadline (arm.awakeMonoNs + maxWorkerWaitNs) ≤ o.nowNs + maxWorkerWaitNs := by
      rcases h arm deadline hcounts with hstart | hdeadline
      · exact (min_le_right _ _).trans (by omega)
      · exact (min_le_left _ _).trans hdeadline
    refine ⟨⟨arm, hcounts.latest, hof.seq, ?_, hlive, hbinds⟩, ?_, ?_⟩
    · rw [hof.waitId, hof.seq]
      exact hcounts.unsettled
    · rw [hof.remaining]
      omega
    · intro o' rows' wait' hsame hwait'
      obtain ⟨arm', deadline', hcounts', -⟩ := counts_of_activeWorkerWait hwait'
      cases hcounts.latest.symm.trans (hsame.symm.trans hcounts'.latest)
      cases hcounts.recorded.symm.trans hcounts'.recorded
      have hnotOver := hcounts'.notOver
      omega

/-! ### A start to come -/

/-- An arm whose start is a day after the observation. -/
def futureArm : Row :=
  ⟨1, 86400000000000, "worker waiting for controller reply", .toController, some "d",
    .workerWaitStarted, some "w", none, none,
    { deadlineAwakeMonoNs := some 86400000000001, waiterPid := some 7, waiterStartToken := some "t",
      questionKind := some "USER-NEED", questionText := some "which branch" }⟩

/-- The watcher of the worker with the pid 7, at the time 1. -/
def earlyWatcher : Observer :=
  ⟨1, some 7, none, fun _ _ => some true, fun _ => none, Char.isAlpha, Char.isAlphanum, fun _ => none⟩

/-- A day of exemption. -/
theorem not_bounded_future : ¬ Bounded earlyWatcher [futureArm] "d" := by
  intro h
  have hbound := (h _ rfl).2.1
  revert hbound
  decide

end Observer

end GoalFlight.Mailbox
