import GoalFlight.Library.Resumption
import GoalFlight.Mailbox.Rows

/-!
# Mailbox: the wait of a worker

A worker that needs an answer reads its mailbox, arms a wait and polls until there is a typed reply
or its deadline has passed.  A wait is settled by the waiter, by a helper that it leaves behind, or
by a later wait that finds it stale.  Every append reads the mailbox and decides under its lock; one
that is cut short leaves no newline, and the next row is written behind it, on the same line.

Helpers are called with any arguments at any moment, which is more than is ever scheduled.  A
world that draws an id of the mailbox again stops the caller.
-/

namespace GoalFlight.Mailbox

open Capacity (strip)

/-! ### The mailbox -/

/-- How much of a row is written. -/
inductive Written
  | whole
  /-- The newline is missing. -/
  | unended
  | part
deriving DecidableEq, Inhabited

/-- What a wait reports, or does. -/
inductive WaitResult
  /-- `deliver_reply`. -/
  | reply (row : Row)
  /-- The pending rows, for a question that they may resolve. -/
  | backlog
  | armed
  /-- `deadline_result`: settled, or not armed at all. -/
  | deadline
  | retry

/-- A result of a wait, with the replies that were owed to the worker when it first read the
mailbox. -/
structure WaitReport where
  owed : List Row
  result : WaitResult

/-- The mailbox with its sidecar.  `admitted` has the rows that `append_worker_wait_reply` has
returned, and `waits` what the waits have reported. -/
structure SteerMailbox where
  lines : List (Option Row)
  /-- The last line has no newline. -/
  torn : Bool
  /-- The exact receipts: those of the sidecar, and those on the worker's tail. -/
  receipts : List (String × ℕ)
  admitted : List Row
  waits : List WaitReport

/-- What the world answers. -/
structure MailAnswer where
  /-- The lock is not granted in time. -/
  busy : Bool
  /-- The carrier cannot be read. -/
  unreadable : Bool
  /-- `int(active_monotonic() * 1_000_000_000)`. -/
  now : ℤ
  pid : ℤ
  startToken : Option String
  /-- `process_identity_matches`. -/
  identityMatches : ℤ → String → Option Bool
  uuid : String
  /-- Whether a receipt is found. -/
  seen : String × ℕ → Bool
  acked : ℕ → Bool
  /-- The question is published. -/
  published : Bool
  /-- A report is printed, and not lost. -/
  printed : Bool
  /-- The report of a reply is on a tail where its receipt is found. -/
  tailed : Bool
  written : Written
deriving Inhabited

namespace SteerMailbox

variable (s : SteerMailbox)

/-- The rows that can be read. -/
def rows : List Row := s.lines.filterMap id

/-- `append_bytes`: behind a line that has no newline the row makes the line unreadable. -/
def append (written : Written) (row : Option Row) : SteerMailbox :=
  { s with
    lines :=
      if s.torn then s.lines.dropLast ++ [none]
      else s.lines ++ [if written = .part then none else row]
    torn := written ≠ .whole }

/-- The replies of a dispatch that were admitted, and are not known to have reached the worker. -/
def owed (dispatchId : String) : List Row :=
  s.admitted.filter fun r => r.dispatchId = some dispatchId ∧ ¬ Consumed s.rows s.receipts r

/-- An empty mailbox. -/
def empty : SteerMailbox := ⟨[], false, [], [], []⟩

end SteerMailbox

/-! ### Sections -/

/-- Why an append is refused. -/
inductive Refusal
  /-- `TimeoutError`. -/
  | timeout
  /-- `MessageError`. -/
  | carrier
  /-- `WorkerWaitReplyPending`. -/
  | replyPending (arm reply : Row)
  | noWait
  | invalidDeadline
  /-- A text with "already settled". -/
  | alreadySettled
  | alreadyReplied
  | invalidDecision
  | invalidReply
  | endMismatch
  | renewalRefused
  /-- An id is drawn that is there. -/
  | collision

/-- What `validate_existing` says: a row that is there, or the new one, but for its number. -/
inductive Prepared
  | existing (row : Row)
  | fresh (entry : Row)

/-- What is checked under the lock. -/
abbrev Validation := MailAnswer → List Row → Except Refusal Prepared

/-- The answer of an append. -/
def SteerMailbox.validated (s : SteerMailbox) (w : MailAnswer) (prepare : Validation) :
    Except Refusal Prepared :=
  if w.busy then .error .timeout
  else if w.unreadable then .error .carrier
  else prepare w s.rows

/-- What a condition can be put on. -/
inductive MailLabel
  | free
  | append (prepare : Validation)

/-- A program of a process of the mailbox. -/
abbrev MailProgram := Resumption.Program SteerMailbox MailAnswer MailLabel

/-- A section that only reads. -/
def look (rest : MailAnswer → SteerMailbox → MailProgram) : MailProgram :=
  .step .free (fun _ s => s) rest

/-- A section of the process's own. -/
def note (write : MailAnswer → SteerMailbox → SteerMailbox) (rest : MailAnswer → MailProgram) :
    MailProgram :=
  .step .free write fun w _ => rest w

/-- The row with its number. -/
def Row.numbered (entry : Row) (rows : List Row) : Row := { entry with seq := nextSeq rows }

section Writers

variable (writes : MailAnswer → Written)

/-- `append_steer_entry`.  A writer whose write is cut short has ended. -/
def appendSteerEntry (prepare : Validation) (rest : Except Refusal Row → MailProgram) :
    MailProgram :=
  .step (.append prepare)
    (fun w s =>
      match s.validated w prepare with
      | .ok (.fresh entry) => s.append (writes w) (some (entry.numbered s.rows))
      | _ => s)
    fun w s =>
      match s.validated w prepare with
      | .ok (.fresh entry) =>
        if writes w = .whole then rest (.ok (entry.numbered s.rows)) else .done
      | .ok (.existing row) => rest (.ok row)
      | .error refusal => rest (.error refusal)

/-! ### Replies and messages -/

/-- The decision of a reply, as it is compared. -/
def normalizedDecision (decision : String) : String :=
  String.ofList ((strip decision).toList.map Char.toLower)

/-- The text has one line, and is not empty. -/
def oneLine (text : String) : Bool :=
  text ≠ "" && !text.toList.contains '\n' && !text.toList.contains '\r'

/-- `append_worker_wait_reply.validate`, and the row that is appended. -/
def validateReply (dispatchId waitId text : String) (decision messageId : Option String) :
    Validation := fun w rows =>
  let armed := rows.reverse.find? fun e =>
    e.IsArm ∧ e.dispatchId = some dispatchId ∧ e.questionId = some waitId
  match armed with
  | none => .error .noWait
  | some arm =>
    match arm.context.deadlineAwakeMonoNs with
    | none => .error .invalidDeadline
    | some deadline =>
      let replies := workerWaitReplies rows dispatchId waitId arm.seq
      let posted := replies.find? fun r =>
        replies.length = 1 ∧ messageId ≠ none ∧ r.context.messageId = messageId
      if deadline ≤ 0 then .error .invalidDeadline
      else
        match posted with
        | some r => .ok (.existing r)
        | none =>
          if (workerWaitSettlement rows waitId arm.seq).isSome then .error .alreadySettled
          else if replies ≠ [] then .error .alreadyReplied
          else if ¬ Admissible arm decision then .error .invalidDecision
          else .ok (.fresh
            { seq := 0
              awakeMonoNs := w.now
              text
              direction := .toWorker
              dispatchId := truthy dispatchId
              kind := .workerWaitReply
              questionId := none
              replyTo := truthy waitId
              decision := decision.bind truthy
              context := { late := some (deadline ≤ w.now), messageId } })

/-- `append_worker_wait_reply`. -/
def appendWorkerWaitReply (dispatchId waitId text : String) (decision messageId : Option String) :
    MailProgram :=
  if strip waitId = "" ∨ oneLine (strip text) = false then .done
  else
    appendSteerEntry writes
      (validateReply dispatchId (strip waitId) (strip text) (decision.map normalizedDecision)
        (messageId.bind truthy))
      fun
      | .ok row => note (fun _ s => { s with admitted := row :: s.admitted }) fun _ => .done
      | .error _ => .done

/-- A row that says nothing of a wait. -/
def validatePlain (kind : PlainKind) (direction : Direction) (text : String)
    (dispatchId questionId replyTo decision : Option String) (context : RowContext) : Validation :=
  fun w _ => .ok (.fresh
    { seq := 0, awakeMonoNs := w.now, text, direction, dispatchId := dispatchId.bind truthy
      kind := .plain kind, questionId := questionId.bind truthy, replyTo := replyTo.bind truthy
      decision := decision.bind truthy, context })

/-- `append_message_view.reuse_message`, and the row that is appended. -/
def validateMessage (dispatchId text : String) (messageId : Option String) : Validation :=
  fun w rows =>
    let reused := rows.find? fun e =>
      messageId.bind truthy ≠ none ∧ e.kind = .plain .message ∧ e.context.envelopeId = messageId
    match reused with
    | some e => .ok (.existing e)
    | none => validatePlain .message .toWorker text (some dispatchId) none none none
        { envelopeId := messageId } w rows

/-- `append_message_view`. -/
def appendMessageView (dispatchId text : String) (messageId replyTo decision : Option String) :
    MailProgram :=
  match replyTo with
  | some waitId => appendWorkerWaitReply writes dispatchId waitId text decision messageId
  | none =>
    if decision ≠ none then .done
    else appendSteerEntry writes (validateMessage dispatchId text messageId) fun _ => .done

/-! ### Settlements -/

/-- How a wait is settled. -/
inductive Settlement
  | failed
  | timeout
  | reply (replySeq : ℕ)

namespace Settlement

/-- The decision of the row. -/
def decision : Settlement → String
  | failed => "failed"
  | timeout => "timeout"
  | reply _ => "reply"

/-- The number of the reply that the row names. -/
def replySeq : Settlement → Option ℕ
  | reply seq => some seq
  | _ => none

end Settlement

/-- `append_worker_wait_ended.validate`, and the row that is appended. -/
def validateEnded (arm : Row) (settlement : Settlement) : Validation := fun w rows =>
  let replies := workerWaitReplies rows (arm.dispatchId.getD "") arm.waitId arm.seq
  let entry : Prepared := .fresh
    { seq := 0
      awakeMonoNs := w.now
      text := "worker reply wait ended"
      direction := .toController
      dispatchId := arm.dispatchId.bind truthy
      kind := .workerWaitEnded
      questionId := none
      replyTo := truthy arm.waitId
      decision := some settlement.decision
      context := { replySeq := settlement.replySeq } }
  let settled : Except Refusal Prepared :=
    if (workerWaitSettlement rows arm.waitId arm.seq).isSome then .error .alreadySettled
    else .ok entry
  match settlement, replies with
  | .reply seq, replies => if replies.map Row.seq = [seq] then settled else .error .endMismatch
  | _, reply :: _ => .error (.replyPending arm reply)
  | _, [] => settled

/-- `append_worker_wait_ended`. -/
def appendWorkerWaitEnded (arm : Row) (settlement : Settlement)
    (rest : Except Refusal Row → MailProgram) : MailProgram :=
  if arm.waitId = "" then rest (.error .endMismatch)
  else appendSteerEntry writes (validateEnded arm settlement) rest

/-- What a helper that is left behind has to do. -/
inductive CleanupOperation
  | receipt (replySeq : ℕ)
  | end_ (replySeq : ℕ)
  | timeout
  | failed

/-- `_run_worker_wait_cleanup`: the mailbox is read without its lock, and then written. -/
def runWorkerWaitCleanup (operation : CleanupOperation) (dispatchId waitId : String)
    (armSeq : ℕ) : MailProgram :=
  look fun w s =>
    if w.unreadable then .done
    else
      let armed := s.rows.find? fun e => e.seq = armSeq ∧ e.kind = .workerWaitStarted ∧
        e.dispatchId = some dispatchId ∧ e.questionId = some waitId
      match armed with
      | none => .done
      | some arm =>
        let replies := (workerWaitReplies s.rows dispatchId waitId armSeq).map Row.seq
        match operation with
        | .timeout => appendWorkerWaitEnded writes arm .timeout fun _ => .done
        | .failed => appendWorkerWaitEnded writes arm .failed fun _ => .done
        | .end_ seq =>
          if replies = [seq] then
            appendWorkerWaitEnded writes arm (.reply seq) fun _ => .done
          else .done
        | .receipt seq =>
          if replies = [seq] then
            note
              (fun w s =>
                if w.busy ∨ w.unreadable then s
                else { s with receipts := (waitId, seq) :: s.receipts })
              fun _ => .done
          else .done

/-! ### Arming a wait -/

/-- `int(MAX_WORKER_WAIT_TIMEOUT_SECS * 1_000_000_000)`. -/
def maxWorkerWaitNs : ℤ := 4 * 3600 * 1000000000

/-- How `settle_stale_prior_wait` settles the latest wait of the dispatch. -/
def staleSettlement (w : MailAnswer) (rows : List Row) (dispatchId : String) :
    Option (Row × Settlement) :=
  match latestWorkerWaitArm rows dispatchId with
  | none => none
  | some prior =>
    let waitId := prior.questionId.getD ""
    if waitId = "" ∨ (workerWaitSettlement rows waitId prior.seq).isSome then none
    else
      match prior.context.deadlineAwakeMonoNs with
      | none => none
      | some deadline =>
        if prior.awakeMonoNs ≤ 0 ∨ deadline ≤ prior.awakeMonoNs then none
        else if min deadline (prior.awakeMonoNs + maxWorkerWaitNs) ≤ w.now then
          some (prior, .timeout)
        else
          match prior.context.waiterPid, prior.context.waiterStartToken with
          | some pid, some token =>
            if pid ≤ 0 ∨ token = "" then none
            else if w.identityMatches pid token = some false then some (prior, .failed)
            else none
          | _, _ => none

/-- `settle_stale_prior_wait`: the mailbox is read, and the settlement is appended later. -/
def settleStalePriorWait (dispatchId : String) (rest : Option Refusal → MailProgram) :
    MailProgram :=
  look fun w s =>
    if w.busy then rest (some .timeout)
    else if w.unreadable then rest (some .carrier)
    else
      match staleSettlement w s.rows dispatchId with
      | none => rest none
      | some (prior, settlement) =>
        appendWorkerWaitEnded writes prior settlement fun
        | .ok _ | .error .alreadySettled => rest none
        | .error refusal => rest (some refusal)

/-- A wait that is asked for. -/
structure WaitRequest where
  dispatchId : String
  questionKind : String
  questionText : String
  timeoutNs : ℤ

/-- The context of a new arm. -/
def armContext (request : WaitRequest) (begun : MailAnswer) (deadline : ℤ)
    (settledPriorReply : Option (String × ℕ)) : RowContext :=
  { deadlineAwakeMonoNs := some (min deadline (begun.now + request.timeoutNs))
    waiterPid := some begun.pid
    waiterStartToken := begun.startToken.bind truthy
    questionKind := some request.questionKind
    questionText := some request.questionText
    settledPriorReply }

local instance lawful_receipts : LawfulBEq (String × ℕ) := inferInstance

/-- `append_worker_wait_started.reject_unsettled_prior_wait`, and the arm that is appended. -/
def validateStarted (request : WaitRequest) (begun : MailAnswer) (deadline : ℤ)
    (consumed : List (String × ℕ)) : Validation := fun w rows =>
  let armed (settledPriorReply : Option (String × ℕ)) : Except Refusal Prepared :=
    if w.uuid = "" ∨ strip w.uuid ≠ w.uuid ∨ ∃ a ∈ rows, a.questionId = some w.uuid then
      .error .collision
    else .ok (.fresh
      { seq := 0
        awakeMonoNs := begun.now
        text := "worker waiting for controller reply"
        direction := .toController
        dispatchId := truthy request.dispatchId
        kind := .workerWaitStarted
        questionId := truthy w.uuid
        replyTo := none
        decision := none
        context := armContext request begun deadline settledPriorReply })
  match latestWorkerWaitArm rows request.dispatchId with
  | none => armed none
  | some prior =>
    let waitId := prior.questionId.getD ""
    if waitId ≠ "" ∧ (workerWaitSettlement rows waitId prior.seq).isSome then armed none
    else
      match recoverableWorkerWaitReply rows request.dispatchId consumed with
      | some (arm, reply) => .error (.replyPending arm reply)
      | none =>
        match workerWaitReplies rows request.dispatchId waitId prior.seq with
        | [reply] =>
          if (waitId, reply.seq) ∈ consumed then armed (some (waitId, reply.seq))
          else .error .renewalRefused
        | _ => .error .renewalRefused

/-- `append_worker_wait_started`. -/
def appendWorkerWaitStarted (request : WaitRequest) (deadline : ℤ)
    (consumed : List (String × ℕ)) (rest : Except Refusal Row → MailProgram) : MailProgram :=
  look fun begun _ =>
    if deadline ≤ begun.now then rest (.error .timeout)
    else
      settleStalePriorWait writes request.dispatchId fun
      | some refusal => rest (.error refusal)
      | none => appendSteerEntry writes (validateStarted request begun deadline consumed) rest

/-! ### Waiting -/

/-- The call reports a result: the report is printed, or it raises. -/
def report (owed : List Row) (result : WaitResult) (rest : MailProgram) : MailProgram :=
  note (fun w s => if w.printed then { s with waits := ⟨owed, result⟩ :: s.waits } else s)
    fun w => if w.printed then rest else .done

/-- `deliver_reply`: what is printed has the receipt of the reply. -/
def deliverReply (owed : List Row) (reply : Row) : MailProgram :=
  note
    (fun w s =>
      if w.printed then
        { s with
          waits := ⟨owed, .reply reply⟩ :: s.waits
          receipts :=
            if w.tailed then (reply.replyTo.getD "", reply.seq) :: s.receipts else s.receipts }
      else s)
    fun _ => .done

/-- `deadline_result`, of a wait that is armed. -/
def deadlineResult (owed : List Row) (arm : Row) : MailProgram :=
  appendWorkerWaitEnded writes arm .timeout fun
  | .ok _ | .error .alreadySettled => report owed .deadline .done
  | .error (.replyPending _ reply) => deliverReply owed reply
  | .error .timeout => report owed .retry .done
  | .error _ => .done

/-- The loop of `wait_for_worker_entries`. -/
def pollReplies (request : WaitRequest) (deadline : ℤ) (owed : List Row) (arm : Row) :
    ℕ → MailProgram
  | 0 => deadlineResult writes owed arm
  | polls + 1 =>
    look fun w s =>
      if deadline ≤ w.now ∨ w.busy then deadlineResult writes owed arm
      else if w.unreadable then pollReplies request deadline owed arm polls
      else
        match workerWaitReplies s.rows request.dispatchId (arm.questionId.getD "") arm.seq with
        | [] => pollReplies request deadline owed arm polls
        | [reply] => deliverReply owed reply
        | _ => .done

/-- The wait is armed; its question is published, and then it polls. -/
def waitArmed (request : WaitRequest) (deadline : ℤ) (polls : ℕ) (owed : List Row) (arm : Row) :
    MailProgram :=
  note (fun _ s => s) fun w =>
    if w.published then
      report owed .armed (pollReplies writes request deadline owed arm polls)
    else appendWorkerWaitEnded writes arm .failed fun _ => .done

/-- `wait_for_worker_entries`, from the arming on. -/
def armWait (request : WaitRequest) (deadline : ℤ) (polls : ℕ) (consumed : List (String × ℕ))
    (owed : List Row) : MailProgram :=
  appendWorkerWaitStarted writes request deadline consumed fun
  | .ok arm => waitArmed writes request deadline polls owed arm
  | .error (.replyPending _ reply) => deliverReply owed reply
  | .error .timeout => report owed .deadline .done
  | .error _ => .done

/-- `wait_for_worker_entries`: the receipts are read, then the mailbox. -/
def waitForWorkerEntries (request : WaitRequest) (polls : ℕ) : MailProgram :=
  look fun w s =>
    let consumed := s.receipts.filter w.seen
    let deadline := w.now + request.timeoutNs
    look fun w s =>
      let owed := s.owed request.dispatchId
      if w.busy then report owed .deadline .done
      else if w.unreadable then .done
      else
        match recoverableWorkerWaitReply s.rows request.dispatchId consumed with
        | some (_, reply) => deliverReply owed reply
        | none =>
          let arm := armWait writes request deadline polls consumed owed
          if pendingWorkerEntries s.rows w.acked = [] then arm
          else report owed .backlog (if request.questionKind = "USER-NEED" then .done else arm)

/-! ### Calls -/

/-- What the processes do. -/
inductive MailCall
  /-- The call with this many turns of its loop. -/
  | wait (request : WaitRequest) (polls : ℕ)
  | reply (dispatchId waitId text : String) (decision messageId : Option String)
  | messageView (dispatchId text : String) (messageId replyTo decision : Option String)
  | steer (kind : PlainKind) (direction : Direction) (text : String)
      (dispatchId questionId replyTo decision : Option String) (context : RowContext)
  | cleanup (operation : CleanupOperation) (dispatchId waitId : String) (armSeq : ℕ)
  /-- The worker prints a receipt. -/
  | printReceipt (waitId : String) (replySeq : ℕ)
  /-- A line is written that nobody can read. -/
  | garble

/-- A line that nobody can read. -/
def garbled : MailProgram :=
  .step (.append fun _ _ => .ok (.fresh
      ⟨0, 0, "", .toWorker, none, .plain .steering, none, none, none, {}⟩))
    (fun _ s => s.append .whole none) fun _ _ => .done

/-- The program of a call. -/
def MailCall.program : MailCall → MailProgram
  | .wait request polls => waitForWorkerEntries writes request polls
  | .reply dispatchId waitId text decision messageId =>
    appendWorkerWaitReply writes dispatchId waitId text decision messageId
  | .messageView dispatchId text messageId replyTo decision =>
    appendMessageView writes dispatchId text messageId replyTo decision
  | .steer kind direction text dispatchId questionId replyTo decision context =>
    appendSteerEntry writes
      (validatePlain kind direction text dispatchId questionId replyTo decision context)
      fun _ => .done
  | .cleanup operation dispatchId waitId armSeq =>
    runWorkerWaitCleanup writes operation dispatchId waitId armSeq
  | .printReceipt waitId replySeq =>
    note (fun _ s => { s with receipts := (waitId, replySeq) :: s.receipts }) fun _ => .done
  | .garble => garbled

end Writers

/-- The mailbox, and the programs of its processes. -/
abbrev MailState := Resumption.State SteerMailbox MailAnswer MailLabel

/-- A step of the processes. -/
abbrev MailAction := Resumption.Action MailCall MailAnswer

/-- The state after these steps, where the writes go so. -/
def MailState.run (writes : MailAnswer → Written) (s : MailState) (actions : List MailAction) :
    MailState :=
  Machine.run (Resumption.step (MailCall.program writes)) s actions

end GoalFlight.Mailbox
