import GoalFlight.Mailbox.Waits

/-!
# Mailbox: the wait after an answer

A worker that has its answer asks again before the row that settles the first wait is written.
The receipt of the answer is then what lets the new wait be armed; but before the receipt is
looked at, an arm that is found stale is to be settled, and an answered wait cannot be settled as
timed out or failed.
-/

namespace GoalFlight.Mailbox

open Resumption (alone)

/-- **The latest wait of the dispatch was answered**, the answer's receipt is there, and the row
that settles the wait is not. -/
structure AnsweredBefore (rows : List Row) (dispatchId : String) (consumed : List (String × ℕ))
    (prior reply : Row) : Prop where
  latest : latestWorkerWaitArm rows dispatchId = some prior
  named : prior.questionId = some prior.waitId ∧ prior.waitId ≠ ""
  replies : workerWaitReplies rows dispatchId prior.waitId prior.seq = [reply]
  unsettled : workerWaitSettlement rows prior.waitId prior.seq = none
  receipt : (prior.waitId, reply.seq) ∈ consumed

/-- The lock is granted, and the mailbox can be read. -/
def MailAnswer.Granted (w : MailAnswer) : Prop := w.busy = false ∧ w.unreadable = false

/-- The answers of the world to a call that nothing else stops: the time is not over, each section
has the lock, and the id that is drawn is new. -/
structure Undisturbed (writes : MailAnswer → Written) (deadline : ℤ) (rows : List Row)
    (begun stale ended arming : MailAnswer) : Prop where
  inTime : begun.now < deadline
  granted : stale.Granted ∧ ended.Granted ∧ arming.Granted
  fresh : arming.uuid ≠ "" ∧ Capacity.strip arming.uuid = arming.uuid ∧
    ¬ ∃ a ∈ rows, a.questionId = some arming.uuid
  whole : writes arming = .whole

section Renewal

variable (writes : MailAnswer → Written) (request : WaitRequest) (deadline : ℤ)
  (consumed : List (String × ℕ)) (s : SteerMailbox) (begun stale ended arming : MailAnswer)

/-- **The new wait is armed**: the call returns an arm that records the answer of the earlier wait,
and it is in the mailbox. -/
def Renewed (prior reply : Row) : Prop :=
  ∃ answers ∈ [[begun, stale, arming], [begun, stale, ended, arming]], ∃ arm,
    arm.IsArm ∧ arm.context.settledPriorReply = some (prior.waitId, reply.seq) ∧
      ∀ rest, alone (appendWorkerWaitStarted writes request deadline consumed rest) s answers =
        (s.append .whole (some arm), rest (.ok arm))

end Renewal

variable {writes : MailAnswer → Written} {request : WaitRequest} {deadline : ℤ}
  {consumed : List (String × ℕ)} {s : SteerMailbox} {begun stale ended arming : MailAnswer}
  {prior reply : Row} {rest : Except Refusal Row → MailProgram}

theorem alone_look {s : SteerMailbox} {next : MailAnswer → SteerMailbox → MailProgram}
    (w : MailAnswer) (answers : List MailAnswer) :
    alone (look next) s (w :: answers) = alone (next w s) s answers := rfl

theorem latestWorkerWaitArm_dispatchId {rows : List Row} {dispatchId : String}
    (h : latestWorkerWaitArm rows dispatchId = some prior) : prior.dispatchId = some dispatchId := by
  have hfound := List.find?_some h
  exact (of_decide_eq_true hfound).2

theorem SteerMailbox.validated_granted {w : MailAnswer} (h : w.Granted) (prepare : Validation) :
    s.validated w prepare = prepare w s.rows := by
  unfold SteerMailbox.validated
  rw [h.1, h.2]
  rfl

section

variable (h : AnsweredBefore s.rows request.dispatchId consumed prior reply)
include h

/-- The receipt lets the new wait be armed. -/
theorem AnsweredBefore.validateStarted
    (hfresh : arming.uuid ≠ "" ∧ Capacity.strip arming.uuid = arming.uuid ∧
      ¬ ∃ a ∈ s.rows, a.questionId = some arming.uuid) :
    ∃ entry, validateStarted request begun deadline consumed arming s.rows = .ok (.fresh entry) ∧
      entry.IsArm ∧ entry.context.settledPriorReply = some (prior.waitId, reply.seq) := by
  have hid : prior.questionId.getD "" = prior.waitId := by rw [h.named.1]; rfl
  have hnone : recoverableWorkerWaitReply s.rows request.dispatchId consumed = none := by
    unfold recoverableWorkerWaitReply
    rw [h.latest]
    dsimp only
    rw [h.replies, if_neg (by simp [h.named.2, h.unsettled])]
    exact if_pos h.receipt
  unfold Mailbox.validateStarted
  rw [h.latest]
  dsimp only
  rw [hid, if_neg (by simp [h.unsettled]), hnone, h.replies]
  dsimp only
  rw [if_pos h.receipt, if_neg (by simpa using hfresh)]
  exact ⟨_, rfl, ⟨rfl, rfl⟩, rfl⟩

/-- What a stale arm is settled as is the latest wait's timeout or failure. -/
theorem AnsweredBefore.staleSettlement_cases :
    staleSettlement stale s.rows request.dispatchId = none ∨
      ∃ settlement ∈ [Settlement.timeout, .failed],
        staleSettlement stale s.rows request.dispatchId = some (prior, settlement) := by
  unfold staleSettlement
  rw [h.latest]
  dsimp only
  split
  · exact .inl rfl
  split
  · exact .inl rfl
  split
  · exact .inl rfl
  split
  · exact .inr ⟨.timeout, by simp, rfl⟩
  split
  · split
    · exact .inl rfl
    split
    · exact .inr ⟨.failed, by simp, rfl⟩
    · exact .inl rfl
  · exact .inl rfl

/-- An answered wait is not settled as timed out or failed. -/
theorem AnsweredBefore.validateEnded {settlement : Settlement}
    (hsettlement : settlement ∈ [Settlement.timeout, .failed]) :
    validateEnded prior settlement ended s.rows = .error (.replyPending prior reply) := by
  have hdispatch : prior.dispatchId = some request.dispatchId :=
    latestWorkerWaitArm_dispatchId h.latest
  unfold Mailbox.validateEnded
  rw [hdispatch]
  dsimp only [Option.getD_some]
  rw [h.replies]
  simp only [List.mem_cons, List.not_mem_nil, or_false] at hsettlement
  rcases hsettlement with rfl | rfl <;> rfl

/-- **The new wait is armed** where the earlier arm is not found stale. -/
theorem alone_of_fresh (hworld : Undisturbed writes deadline s.rows begun stale ended arming)
    (hstale : staleSettlement stale s.rows request.dispatchId = none) :
    Renewed writes request deadline consumed s begun stale ended arming prior reply := by
  obtain ⟨entry, hentry, harm, hprior⟩ := h.validateStarted hworld.fresh
  refine ⟨[begun, stale, arming], by simp, entry.numbered s.rows, harm, hprior, fun rest => ?_⟩
  unfold appendWorkerWaitStarted
  rw [alone_look, if_neg (not_le.mpr hworld.inTime)]
  unfold settleStalePriorWait
  rw [alone_look, hworld.granted.1.1, hworld.granted.1.2, hstale]
  unfold appendSteerEntry
  simp only [Bool.false_eq_true, if_false, alone]
  rw [SteerMailbox.validated_granted hworld.granted.2.2, hentry]
  dsimp only
  rw [if_pos hworld.whole, hworld.whole]

/-- **The answer that the worker has is pending again** where the earlier arm is found stale. -/
theorem alone_of_stale (hintime : begun.now < deadline) (hgranted : stale.Granted)
    (hended : ended.Granted) (hstale : staleSettlement stale s.rows request.dispatchId ≠ none)
    (rest : Except Refusal Row → MailProgram) :
    alone (appendWorkerWaitStarted writes request deadline consumed rest) s
      [begun, stale, ended] = (s, rest (.error (.replyPending prior reply))) := by
  rcases h.staleSettlement_cases with hnone | ⟨settlement, hmem, hsome⟩
  · exact absurd hnone hstale
  · unfold appendWorkerWaitStarted
    rw [alone_look, if_neg (not_le.mpr hintime)]
    unfold settleStalePriorWait
    rw [alone_look, hgranted.1, hgranted.2, hsome]
    unfold appendWorkerWaitEnded appendSteerEntry
    simp only [Bool.false_eq_true, if_false, if_neg h.named.2, alone]
    rw [SteerMailbox.validated_granted hended, h.validateEnded hmem]

end

/-- What follows a refusal takes two turns more, what follows the new arm none. -/
def twoTurns : Except Refusal Row → MailProgram
  | .ok _ => .done
  | .error _ => look fun _ _ => look fun _ _ => .done

/-- **The new wait is armed exactly if the earlier arm is not found stale.** -/
theorem renewed_iff (h : AnsweredBefore s.rows request.dispatchId consumed prior reply)
    (hworld : Undisturbed writes deadline s.rows begun stale ended arming) :
    Renewed writes request deadline consumed s begun stale ended arming prior reply ↔
      staleSettlement stale s.rows request.dispatchId = none := by
  refine ⟨fun hrenewed => ?_, alone_of_fresh h hworld⟩
  by_contra hstale
  obtain ⟨answers, hmem, arm, -, -, halone⟩ := hrenewed
  have hraised : ∀ w : MailAnswer, w.Granted →
      alone (appendWorkerWaitStarted writes request deadline consumed twoTurns) s [begun, stale, w] =
        (s, twoTurns (.error (.replyPending prior reply))) := fun w hw =>
    alone_of_stale h hworld.inTime hworld.granted.1 hw hstale twoTurns
  have hdone := halone twoTurns
  simp only [List.mem_cons, List.not_mem_nil, or_false] at hmem
  rcases hmem with rfl | rfl
  · rw [hraised arming hworld.granted.2.2] at hdone
    cases (Prod.mk.inj hdone).2
  · have hfour := Resumption.alone_append
      (appendWorkerWaitStarted writes request deadline consumed twoTurns) s [begun, stale, ended]
      [arming]
    rw [hraised ended hworld.granted.2.1] at hfour
    cases (Prod.mk.inj (hdone.symm.trans hfour)).2

/-! ### Before and after the deadline -/

/-- An arm of `d` with the deadline 100, in a wait that is answered. -/
def priorArm : Row :=
  ⟨1, 10, "worker waiting for controller reply", .toController, some "d", .workerWaitStarted,
    some "w", none, none,
    { deadlineAwakeMonoNs := some 100, waiterPid := some 7, waiterStartToken := some "t",
      questionKind := some "USER-NEED", questionText := some "which branch" }⟩

/-- The answer. -/
def priorReply : Row :=
  ⟨2, 20, "main", .toWorker, some "d", .workerWaitReply, none, some "w", none, {}⟩

/-- A mailbox with the two rows. -/
def answeredMailbox : SteerMailbox := ⟨[some priorArm, some priorReply], false, [("w", 2)], [], []⟩

/-- A world in which nothing goes wrong, at this time. -/
def worldAt (now : ℤ) : MailAnswer :=
  ⟨false, false, now, 9, some "u", fun _ _ => some true, "v", fun _ => true, fun _ => false, true,
    true, false, .whole⟩

theorem answeredBefore_prior :
    AnsweredBefore answeredMailbox.rows "d" [("w", 2)] priorArm priorReply :=
  ⟨by decide, by decide, by decide, by decide, by decide⟩

theorem undisturbed_worldAt (now : ℤ) (h : now < 500) :
    Undisturbed (fun w => w.written) 500 answeredMailbox.rows (worldAt now) (worldAt now)
      (worldAt now) (worldAt now) :=
  ⟨h, ⟨⟨rfl, rfl⟩, ⟨rfl, rfl⟩, ⟨rfl, rfl⟩⟩, (by decide : "v" ≠ "" ∧ Capacity.strip "v" = "v" ∧
    ¬ ∃ a ∈ answeredMailbox.rows, a.questionId = some "v"), rfl⟩

/-- A wait before the earlier deadline is armed. -/
theorem renewed_iff_before :
    Renewed (fun w => w.written) ⟨"d", "USER-NEED", "which tag", 100⟩ 500 [("w", 2)] answeredMailbox
      (worldAt 50) (worldAt 50) (worldAt 50) (worldAt 50) priorArm priorReply :=
  (renewed_iff answeredBefore_prior (undisturbed_worldAt 50 (by decide))).mpr (by decide)

/-- A wait after the earlier deadline is told of an answer that the worker has. -/
theorem not_renewed_after : AnsweredBefore answeredMailbox.rows "d" [("w", 2)] priorArm priorReply ∧
    Undisturbed (fun w => w.written) 500 answeredMailbox.rows (worldAt 200) (worldAt 200)
      (worldAt 200) (worldAt 200) ∧
    ¬ Renewed (fun w => w.written) ⟨"d", "USER-NEED", "which tag", 100⟩ 500 [("w", 2)]
      answeredMailbox (worldAt 200) (worldAt 200) (worldAt 200) (worldAt 200) priorArm priorReply := by
  refine ⟨answeredBefore_prior, undisturbed_worldAt 200 (by decide), ?_⟩
  rintro ⟨answers, hmem, arm, -, -, halone⟩
  have hrest := halone twoTurns
  simp only [List.mem_cons, List.not_mem_nil, or_false] at hmem
  rcases hmem with rfl | rfl
  · cases (Prod.mk.inj hrest).2
  · cases (Prod.mk.inj hrest).2

end GoalFlight.Mailbox
