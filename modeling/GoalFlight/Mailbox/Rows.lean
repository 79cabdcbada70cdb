import Mathlib.Data.List.Nodup
import GoalFlight.Capacity.Admission

/-!
# Mailbox: the rows of a steer mailbox

Every dispatch has a mailbox, one JSON row a line.  The controller's messages to the worker are
in it, and the worker's *waits*: the row that arms a wait carries its question, a typed reply
answers it, and a row that settles it says how it ended.

A reader skips the lines that it cannot read.  What it knows of a wait it finds in the other
rows: the latest arm of a dispatch, the replies to a wait and its settlement are looked up here,
and `SoundRows` is what the rows of a mailbox keep.
-/

namespace GoalFlight.Mailbox

open Capacity (strip)

/-! ### Rows -/

/-- `STEER_DIRECTIONS`. -/
inductive Direction
  | toWorker
  | toController
deriving DecidableEq

/-- The kinds of rows that say nothing of a wait. -/
inductive PlainKind
  | steering
  | userConfirm
  | message
deriving DecidableEq

/-- The kinds of rows. -/
inductive Kind
  | plain (kind : PlainKind)
  | workerWaitStarted
  | workerWaitEnded
  | workerWaitReply
deriving DecidableEq

/-- What is read of the `context` of a row. -/
structure RowContext where
  deadlineAwakeMonoNs : Option ℤ := none
  waiterPid : Option ℤ := none
  waiterStartToken : Option String := none
  questionKind : Option String := none
  questionText : Option String := none
  settledPriorReply : Option (String × ℕ) := none
  late : Option Bool := none
  replySeq : Option ℕ := none
  messageId : Option String := none
  /-- The id of the `message_envelope`. -/
  envelopeId : Option String := none
deriving DecidableEq

/-- A row of the mailbox. -/
structure Row where
  seq : ℕ
  awakeMonoNs : ℤ
  text : String
  direction : Direction
  dispatchId : Option String
  kind : Kind
  questionId : Option String
  replyTo : Option String
  decision : Option String
  context : RowContext
deriving DecidableEq

/-- A key is written when its value is truthy. -/
def truthy (value : String) : Option String := if value = "" then none else some value

/-- The number of the next row: `max(…, default=0) + 1`. -/
def nextSeq (rows : List Row) : ℕ := (rows.map Row.seq).max?.getD 0 + 1

namespace Row

variable (e : Row)

/-- The row arms a wait. -/
def IsArm : Prop := e.direction = .toController ∧ e.kind = .workerWaitStarted

/-- The row is a typed reply. -/
def IsReply : Prop := e.direction = .toWorker ∧ e.kind = .workerWaitReply

/-- `WORKER_WAIT_SETTLED_DECISIONS`. -/
def settledDecisions : List String := ["failed", "reply", "timeout"]

/-- The row settles a wait. -/
def IsEnd : Prop :=
  e.direction = .toController ∧ e.kind = .workerWaitEnded ∧
    ∃ decision ∈ settledDecisions, e.decision = some decision

instance : Decidable e.IsArm := by
  unfold IsArm
  infer_instance

instance : Decidable e.IsReply := by
  unfold IsReply
  infer_instance

instance : Decidable e.IsEnd := by
  unfold IsEnd
  infer_instance

/-- `str(entry.get("question_id") or "").strip()`. -/
def waitId : String := strip (e.questionId.getD "")

end Row

/-! ### What a reader finds -/

/-- `_latest_worker_wait_arm`. -/
def latestWorkerWaitArm (rows : List Row) (dispatchId : String) : Option Row :=
  rows.reverse.find? fun e => e.IsArm ∧ e.dispatchId = some dispatchId

/-- The row is a settlement that counts: a reply has to be there that it names. -/
def Settles (rows : List Row) (waitId : String) (e : Row) : Prop :=
  e.IsEnd ∧ e.replyTo = some waitId ∧
    (e.decision ≠ some "reply" ∨
      ∃ r ∈ rows, e.context.replySeq = some r.seq ∧ r.IsReply ∧ r.replyTo = some waitId)

instance (rows : List Row) (waitId : String) (e : Row) : Decidable (Settles rows waitId e) := by
  unfold Settles
  infer_instance

/-- `_worker_wait_settlement`. -/
def workerWaitSettlement (rows : List Row) (waitId : String) (afterSeq : ℕ) : Option Row :=
  rows.find? fun e => afterSeq < e.seq ∧ Settles rows waitId e

/-- `_worker_wait_replies`. -/
def workerWaitReplies (rows : List Row) (dispatchId waitId : String) (afterSeq : ℕ) : List Row :=
  rows.filter fun e => afterSeq < e.seq ∧ e.IsReply ∧ e.dispatchId = some dispatchId ∧
    e.replyTo = some waitId

/-- `USER_CONFIRM_DECISIONS`. -/
def userConfirmDecisions : List String := ["yes", "no"]

/-- The decision fits the question: a confirmation has to be decided. -/
def Admissible (arm : Row) (decision : Option String) : Prop :=
  (arm.context.questionKind = some "USER-CONFIRM" ∨ decision ≠ none) →
    ∃ d ∈ userConfirmDecisions, decision = some d

instance (arm : Row) (decision : Option String) : Decidable (Admissible arm decision) := by
  unfold Admissible
  infer_instance

/-- `_recoverable_worker_wait_reply`. -/
def recoverableWorkerWaitReply (rows : List Row) (dispatchId : String)
    (consumed : List (String × ℕ)) : Option (Row × Row) :=
  match latestWorkerWaitArm rows dispatchId with
  | none => none
  | some arm =>
    if arm.waitId = "" ∨ (workerWaitSettlement rows arm.waitId arm.seq).isSome then none
    else
      match workerWaitReplies rows dispatchId arm.waitId arm.seq with
      | [reply] =>
        if (arm.waitId, reply.seq) ∈ consumed then none
        else if Admissible arm reply.decision then some (arm, reply)
        else none
      | _ => none

/-- `pending_worker_entries`. -/
def pendingWorkerEntries (rows : List Row) (acked : ℕ → Bool) : List Row :=
  rows.filter fun e => e.direction = .toWorker ∧ acked e.seq = false ∧ e.kind ≠ .workerWaitReply

/-! ### What the rows keep -/

/-- There is a receipt for the reply. -/
def Receipted (receipts : List (String × ℕ)) (r : Row) : Prop :=
  ∃ waitId, r.replyTo = some waitId ∧ (waitId, r.seq) ∈ receipts

/-- The row settles the wait of the reply, by it. -/
def SettledBy (rows : List Row) (r : Row) : Prop :=
  ∃ e ∈ rows, e.IsEnd ∧ e.decision = some "reply" ∧ e.replyTo = r.replyTo ∧
    e.context.replySeq = some r.seq

/-- The reply is known to have reached the worker. -/
def Consumed (rows : List Row) (receipts : List (String × ℕ)) (r : Row) : Prop :=
  Receipted receipts r ∨ SettledBy rows r

/-- The wait is over: it is settled, or there is a receipt for its reply. -/
def Closed (rows : List Row) (receipts : List (String × ℕ)) (a : Row) : Prop :=
  (∃ e ∈ rows, e.IsEnd ∧ e.replyTo = a.questionId) ∨
    ∃ r ∈ rows, r.IsReply ∧ r.replyTo = a.questionId ∧ Receipted receipts r

/-- **What the rows of a mailbox keep**: the numbers rise, a wait has one arm, at most one reply
and at most one settlement, a settlement of an answered wait names the answer, and a dispatch
has at most one wait that is not over, its latest. -/
structure SoundRows (rows : List Row) (receipts : List (String × ℕ)) : Prop where
  rising : rows.Pairwise fun e e' => e.seq < e'.seq
  directed : ∀ a ∈ rows, a.kind = .workerWaitStarted → a.direction = .toController
  addressed : ∀ a ∈ rows, a.IsArm → a.dispatchId ≠ some ""
  named : ∀ a ∈ rows, a.IsArm → a.questionId = some a.waitId ∧ a.waitId ≠ ""
  arms : ∀ a ∈ rows, ∀ b ∈ rows, a.IsArm → b.IsArm → a.questionId = b.questionId → a = b
  answers : ∀ r ∈ rows, r.IsReply → ∃ a ∈ rows, a.IsArm ∧ a.seq < r.seq ∧
    a.questionId = r.replyTo ∧ a.dispatchId = r.dispatchId ∧ r.dispatchId ≠ none ∧
    Admissible a r.decision
  replies : ∀ r ∈ rows, ∀ r' ∈ rows, r.IsReply → r'.IsReply → r.replyTo = r'.replyTo → r = r'
  ends : ∀ e ∈ rows, e.IsEnd → ∃ a ∈ rows, a.IsArm ∧ a.seq < e.seq ∧ a.questionId = e.replyTo
  settlements : ∀ e ∈ rows, ∀ e' ∈ rows, e.IsEnd → e'.IsEnd → e.replyTo = e'.replyTo → e = e'
  exclusive : ∀ e ∈ rows, ∀ r ∈ rows, e.IsEnd → r.IsReply → e.replyTo = r.replyTo →
    e.decision = some "reply"
  settledBy : ∀ e ∈ rows, e.IsEnd → e.decision = some "reply" →
    ∃ r ∈ rows, r.IsReply ∧ r.replyTo = e.replyTo ∧ e.context.replySeq = some r.seq
  older : ∀ a ∈ rows, ∀ b ∈ rows, a.IsArm → b.IsArm → a.dispatchId = b.dispatchId →
    a.dispatchId ≠ none → a.seq < b.seq → Closed rows receipts a

instance (receipts : List (String × ℕ)) (r : Row) : Decidable (Receipted receipts r) :=
  decidable_of_iff (∃ waitId ∈ r.replyTo, (waitId, r.seq) ∈ receipts) Iff.rfl

instance (rows : List Row) (r : Row) : Decidable (SettledBy rows r) := by
  unfold SettledBy
  infer_instance

instance (rows : List Row) (receipts : List (String × ℕ)) (r : Row) :
    Decidable (Consumed rows receipts r) := by
  unfold Consumed
  infer_instance

variable {rows : List Row} {receipts : List (String × ℕ)} {a b e r : Row} {dispatchId : String}

theorem lt_nextSeq (he : e ∈ rows) : e.seq < nextSeq rows :=
  Nat.lt_succ_of_le (List.le_max?_getD_of_mem (List.mem_map_of_mem he))

theorem latestWorkerWaitArm_eq_some (hs : rows.Pairwise fun e e' => e.seq < e'.seq)
    (h : latestWorkerWaitArm rows dispatchId = some a) :
    a ∈ rows ∧ a.IsArm ∧ a.dispatchId = some dispatchId ∧
      ∀ b ∈ rows, b.IsArm → b.dispatchId = some dispatchId → b.seq ≤ a.seq := by
  have hmem : a ∈ rows := List.mem_reverse.mp (List.mem_of_find?_eq_some h)
  have hfound := List.find?_some h
  have hprop := of_decide_eq_true hfound
  refine ⟨hmem, hprop.1, hprop.2, fun b hb harm hdispatch => ?_⟩
  obtain ⟨-, older, newer, hrows, hnewer⟩ := List.find?_eq_some_iff_append.mp h
  -- What stands before it in the reversed list are the later rows, and none is an arm.
  have hback : rows = newer.reverse ++ a :: older.reverse := by
    rw [← List.reverse_reverse rows, hrows]
    simp
  rw [hback] at hs hb
  rcases List.mem_append.mp hb with hbefore | hafter
  · exact ((List.pairwise_append.mp hs).2.2 b hbefore a List.mem_cons_self).le
  · rcases List.mem_cons.mp hafter with rfl | hlate
    · exact le_rfl
    · have hnot := hnewer b (List.mem_reverse.mp hlate)
      simp [harm, hdispatch] at hnot

theorem latestWorkerWaitArm_eq_none (h : latestWorkerWaitArm rows dispatchId = none) :
    ∀ b ∈ rows, b.IsArm → b.dispatchId ≠ some dispatchId := by
  intro b hb harm hdispatch
  have hnot := List.find?_eq_none.mp h b (List.mem_reverse.mpr hb)
  exact hnot (decide_eq_true ⟨harm, hdispatch⟩)

section

variable (hs : SoundRows rows receipts) (ha : a ∈ rows)
include hs ha

theorem SoundRows.eq_of_seq (hb : b ∈ rows) (hseq : a.seq = b.seq) : a = b := by
  have hnodup : (rows.map Row.seq).Nodup :=
    List.pairwise_map.mpr (hs.rising.imp fun hlt => Nat.ne_of_lt hlt)
  exact List.inj_on_of_nodup_map hnodup ha hb hseq

theorem SoundRows.named_waitId (harm : a.IsArm) :
    a.questionId = some a.waitId := (hs.named a ha harm).1

/-- **A settlement is found** where there is one. -/
theorem SoundRows.workerWaitSettlement_eq_none (harm : a.IsArm)
    (h : workerWaitSettlement rows a.waitId a.seq = none) :
    ∀ e ∈ rows, e.IsEnd → e.replyTo ≠ a.questionId := by
  intro e he hend hreply
  have hname := hs.named_waitId ha harm
  have hnot := List.find?_eq_none.mp h e he
  refine hnot (decide_eq_true ⟨?_, hend, hreply.trans hname, ?_⟩)
  · obtain ⟨b, hb, hbarm, hlt, hquestion⟩ := hs.ends e he hend
    rwa [hs.arms a ha b hb harm hbarm (hreply.symm.trans hquestion.symm)]
  · by_cases hdecision : e.decision = some "reply"
    · obtain ⟨r, hr, hisReply, hto, hseq⟩ := hs.settledBy e he hend hdecision
      exact .inr ⟨r, hr, hseq, hisReply, hto.trans (hreply.trans hname)⟩
    · exact .inl hdecision

end

theorem workerWaitSettlement_isSome {waitId : String} {afterSeq : ℕ}
    (h : (workerWaitSettlement rows waitId afterSeq).isSome) :
    ∃ e ∈ rows, e.IsEnd ∧ e.replyTo = some waitId := by
  obtain ⟨e, he⟩ := Option.isSome_iff_exists.mp h
  have hfound := List.find?_some he
  have hprop := of_decide_eq_true hfound
  exact ⟨e, List.mem_of_find?_eq_some he, hprop.2.1, hprop.2.2.1⟩

section

variable (hs : SoundRows rows receipts)
include hs

theorem SoundRows.mem_workerWaitReplies (ha : a ∈ rows) (harm : a.IsArm)
    (hdispatch : a.dispatchId.getD "" = dispatchId) :
    r ∈ workerWaitReplies rows dispatchId a.waitId a.seq ↔
      r ∈ rows ∧ r.IsReply ∧ r.replyTo = a.questionId := by
  have hname := hs.named_waitId ha harm
  unfold workerWaitReplies
  rw [List.mem_filter, decide_eq_true_eq]
  constructor
  · rintro ⟨hr, -, hisReply, -, hto⟩
    exact ⟨hr, hisReply, hto.trans hname.symm⟩
  · rintro ⟨hr, hisReply, hto⟩
    obtain ⟨b, hb, hbarm, hlt, hquestion, hsame, hsome, -⟩ := hs.answers r hr hisReply
    obtain rfl := hs.arms a ha b hb harm hbarm (hto.symm.trans hquestion.symm)
    obtain ⟨d, hd⟩ := Option.ne_none_iff_exists'.mp hsome
    rw [hsame, hd] at hdispatch
    exact ⟨hr, hlt, hisReply, hd.trans (congrArg some hdispatch), hto.trans hname⟩

theorem SoundRows.workerWaitReplies_cases (ha : a ∈ rows) (harm : a.IsArm)
    (hdispatch : a.dispatchId.getD "" = dispatchId) :
    (workerWaitReplies rows dispatchId a.waitId a.seq = [] ∧
      ∀ r ∈ rows, r.IsReply → r.replyTo ≠ a.questionId) ∨
    ∃ r, workerWaitReplies rows dispatchId a.waitId a.seq = [r] ∧ r ∈ rows ∧ r.IsReply ∧
      r.replyTo = a.questionId := by
  have hmem := fun r => hs.mem_workerWaitReplies (r := r) ha harm hdispatch
  have hrising : (workerWaitReplies rows dispatchId a.waitId a.seq).Pairwise
      fun e e' => e.seq < e'.seq := hs.rising.filter _
  generalize workerWaitReplies rows dispatchId a.waitId a.seq = found at hmem hrising
  match found with
  | [] => exact .inl ⟨rfl, fun r hr hisReply hto =>
    absurd ((hmem r).mpr ⟨hr, hisReply, hto⟩) List.not_mem_nil⟩
  | [r] => exact .inr ⟨r, rfl, (hmem r).mp List.mem_cons_self⟩
  | r :: r' :: _ =>
    obtain ⟨hr, hisReply, hto⟩ := (hmem r).mp List.mem_cons_self
    obtain ⟨hr', hisReply', hto'⟩ :=
      (hmem r').mp (List.mem_cons_of_mem _ List.mem_cons_self)
    have hsame := hs.replies r hr r' hr' hisReply hisReply' (hto.trans hto'.symm)
    have hlt := (List.pairwise_cons.mp hrising).1 r' List.mem_cons_self
    rw [hsame] at hlt
    exact absurd hlt (Nat.lt_irrefl _)

theorem SoundRows.consumed_of_closed (hr : r ∈ rows) (hreply : r.IsReply)
    (hto : r.replyTo = a.questionId) (hclosed : Closed rows receipts a) :
    Consumed rows receipts r := by
  rcases hclosed with ⟨e, he, hend, hfor⟩ | ⟨r', hr', hreply', hto', hreceipt⟩
  · have hsame : e.replyTo = r.replyTo := hfor.trans hto.symm
    have hdecision := hs.exclusive e he r hr hend hreply hsame
    obtain ⟨r', hr', hreply', hto', hseq⟩ := hs.settledBy e he hend hdecision
    obtain rfl := hs.replies r hr r' hr' hreply hreply' (hsame.symm.trans hto'.symm)
    exact .inr ⟨e, he, hend, hdecision, hsame, hseq⟩
  · obtain rfl := hs.replies r hr r' hr' hreply hreply' (hto.trans hto'.symm)
    exact .inl hreceipt

/-- **An unconsumed reply is recovered**, when its wait is the latest of the dispatch. -/
theorem SoundRows.recoverable_eq_some (hlatest : latestWorkerWaitArm rows dispatchId = some a)
    (hr : r ∈ rows) (hreply : r.IsReply) (hto : r.replyTo = a.questionId)
    (howed : ¬ Consumed rows receipts r) {consumed : List (String × ℕ)}
    (hconsumed : ∀ c ∈ consumed, c ∈ receipts) :
    workerWaitSettlement rows a.waitId a.seq = none ∧
      recoverableWorkerWaitReply rows dispatchId consumed = some (a, r) := by
  obtain ⟨ha, harm, hdispatch, -⟩ := latestWorkerWaitArm_eq_some hs.rising hlatest
  have hname := hs.named_waitId ha harm
  have hsettled : workerWaitSettlement rows a.waitId a.seq = none := by
    by_contra hne
    obtain ⟨e, he, hend, hfor⟩ := workerWaitSettlement_isSome (Option.isSome_iff_ne_none.mpr hne)
    exact howed (hs.consumed_of_closed hr hreply hto (.inl ⟨e, he, hend, hfor.trans hname.symm⟩))
  have hreplies : workerWaitReplies rows dispatchId a.waitId a.seq = [r] := by
    obtain ⟨-, hnone⟩ | ⟨r', heq, hr', hreply', hto'⟩ :=
      hs.workerWaitReplies_cases ha harm (congrArg (Option.getD · "") hdispatch)
    · exact absurd hto (hnone r hr hreply)
    · rwa [hs.replies r hr r' hr' hreply hreply' (hto.trans hto'.symm)]
  have hadmissible : Admissible a r.decision := by
    obtain ⟨b, hb, hbarm, -, hquestion, -, -, hadmissible⟩ := hs.answers r hr hreply
    rwa [hs.arms a ha b hb harm hbarm (hto.symm.trans hquestion.symm)]
  have hunreceipted : (a.waitId, r.seq) ∉ consumed := fun hmem =>
    howed (.inl ⟨a.waitId, hto.trans hname, hconsumed _ hmem⟩)
  refine ⟨hsettled, ?_⟩
  unfold recoverableWorkerWaitReply
  rw [hlatest]
  simp only
  rw [hsettled, if_neg (by simp [(hs.named a ha harm).2]), hreplies]
  simp only
  rw [if_neg hunreceipted, if_pos hadmissible]

/-- **An owed reply is that of the latest wait** of its dispatch. -/
theorem SoundRows.latest_of_owed (hr : r ∈ rows) (hreply : r.IsReply)
    (hdispatch : r.dispatchId = some dispatchId) (howed : ¬ Consumed rows receipts r) :
    ∃ a, latestWorkerWaitArm rows dispatchId = some a ∧ r.replyTo = a.questionId := by
  obtain ⟨a, ha, harm, -, hquestion, hsame, -⟩ := hs.answers r hr hreply
  have hadispatch := hsame.trans hdispatch
  match hlatest : latestWorkerWaitArm rows dispatchId with
  | none => exact absurd hadispatch (latestWorkerWaitArm_eq_none hlatest a ha harm)
  | some b =>
    obtain ⟨hb, hbarm, hbdispatch, hlast⟩ := latestWorkerWaitArm_eq_some hs.rising hlatest
    refine ⟨b, rfl, ?_⟩
    rcases (hlast a ha harm hadispatch).lt_or_eq with hlt | heq
    · -- An earlier wait is over, and so its reply has reached the worker.
      have hclosed := hs.older a ha b hb harm hbarm (hadispatch.trans hbdispatch.symm)
        (hadispatch ▸ Option.some_ne_none _) hlt
      exact absurd (hs.consumed_of_closed hr hreply hquestion.symm hclosed) howed
    · rw [← hs.eq_of_seq ha hb heq]
      exact hquestion.symm

end

/-! ### A row more -/

theorem Closed.mono {rows' : List Row} {receipts' : List (String × ℕ)}
    (h : Closed rows receipts a) (hrows : ∀ e ∈ rows, e ∈ rows')
    (hreceipts : ∀ c ∈ receipts, c ∈ receipts') : Closed rows' receipts' a := by
  rcases h with ⟨e, he, hend⟩ | ⟨r, hr, hreply, hto, waitId, hfor, hmem⟩
  · exact .inl ⟨e, hrows e he, hend⟩
  · exact .inr ⟨r, hrows r hr, hreply, hto, waitId, hfor, hreceipts _ hmem⟩

theorem SoundRows.mono_receipts {receipts' : List (String × ℕ)} (hs : SoundRows rows receipts)
    (hreceipts : ∀ c ∈ receipts, c ∈ receipts') : SoundRows rows receipts' :=
  { hs with
    older := fun a ha b hb harm hbarm hsame hsome hlt =>
      (hs.older a ha b hb harm hbarm hsame hsome hlt).mono (fun _ h => h) hreceipts }

/-- **What is asked of a row** that is appended. -/
structure Fits (rows : List Row) (receipts : List (String × ℕ)) (e : Row) : Prop where
  seq : e.seq = nextSeq rows
  directed : e.kind = .workerWaitStarted → e.direction = .toController
  arm : e.IsArm → e.dispatchId ≠ some "" ∧ (e.questionId = some e.waitId ∧ e.waitId ≠ "") ∧
    (∀ a ∈ rows, a.IsArm → a.questionId ≠ e.questionId) ∧
    ∀ a ∈ rows, a.IsArm → a.dispatchId = e.dispatchId → a.dispatchId ≠ none →
      Closed rows receipts a
  reply : e.IsReply →
    (∃ a ∈ rows, a.IsArm ∧ a.questionId = e.replyTo ∧ a.dispatchId = e.dispatchId ∧
      e.dispatchId ≠ none ∧ Admissible a e.decision) ∧
    (∀ r ∈ rows, r.IsReply → r.replyTo ≠ e.replyTo) ∧
    ∀ e' ∈ rows, e'.IsEnd → e'.replyTo ≠ e.replyTo
  settle : e.IsEnd →
    (∃ a ∈ rows, a.IsArm ∧ a.questionId = e.replyTo) ∧
    (∀ e' ∈ rows, e'.IsEnd → e'.replyTo ≠ e.replyTo) ∧
    (e.decision = some "reply" →
      ∃ r ∈ rows, r.IsReply ∧ r.replyTo = e.replyTo ∧ e.context.replySeq = some r.seq) ∧
    (e.decision ≠ some "reply" → ∀ r ∈ rows, r.IsReply → r.replyTo ≠ e.replyTo)

theorem Row.IsReply.not_end (h : e.IsReply) : ¬ e.IsEnd := fun h' => by
  have := h.2.symm.trans h'.2.1
  cases this

/-- **A row that fits is appended**, and the rows keep what they keep. -/
theorem SoundRows.snoc (hs : SoundRows rows receipts) (hfits : Fits rows receipts e) :
    SoundRows (rows ++ [e]) receipts := by
  have hsub : ∀ x ∈ rows, x ∈ rows ++ [e] := fun x => List.mem_append_left _
  have hlast : e ∈ rows ++ [e] := List.mem_append_right _ List.mem_cons_self
  have hcases : ∀ {x}, x ∈ rows ++ [e] → x ∈ rows ∨ x = e := fun hx =>
    (List.mem_append.mp hx).imp_right List.mem_singleton.mp
  have hlater : ∀ x ∈ rows, x.seq < e.seq := fun x hx => hfits.seq ▸ lt_nextSeq hx
  constructor
  case rising =>
    refine List.pairwise_append.mpr ⟨hs.rising, List.pairwise_singleton _ _, ?_⟩
    intro x hx y hy
    obtain rfl := List.mem_singleton.mp hy
    exact hlater x hx
  case directed =>
    intro a ha₁ hkind
    obtain ha | rfl := hcases ha₁
    · exact hs.directed a ha hkind
    · exact hfits.directed hkind
  case addressed =>
    intro a ha₁ harm
    obtain ha | rfl := hcases ha₁
    · exact hs.addressed a ha harm
    · exact (hfits.arm harm).1
  case named =>
    intro a ha₁ harm
    obtain ha | rfl := hcases ha₁
    · exact hs.named a ha harm
    · exact (hfits.arm harm).2.1
  case arms =>
    intro a ha₁ b hb₁ harm hbarm hsame
    obtain ha | rfl := hcases ha₁
    · obtain hb | rfl := hcases hb₁
      · exact hs.arms a ha b hb harm hbarm hsame
      · exact absurd hsame ((hfits.arm hbarm).2.2.1 a ha harm)
    · obtain hb | rfl := hcases hb₁
      · exact absurd hsame.symm ((hfits.arm harm).2.2.1 b hb hbarm)
      · rfl
  case answers =>
    intro r hr₁ hreply
    obtain hr | rfl := hcases hr₁
    · obtain ⟨a, ha, harm⟩ := hs.answers r hr hreply
      exact ⟨a, hsub a ha, harm⟩
    · obtain ⟨⟨a, ha, harm, hrest⟩, -⟩ := hfits.reply hreply
      exact ⟨a, hsub a ha, harm, hlater a ha, hrest⟩
  case replies =>
    intro r hr₁ r' hr'₁ hreply hreply' hsame
    obtain hr | rfl := hcases hr₁
    · obtain hr' | rfl := hcases hr'₁
      · exact hs.replies r hr r' hr' hreply hreply' hsame
      · exact absurd hsame ((hfits.reply hreply').2.1 r hr hreply)
    · obtain hr' | rfl := hcases hr'₁
      · exact absurd hsame.symm ((hfits.reply hreply).2.1 r' hr' hreply')
      · rfl
  case ends =>
    intro x hx₁ hend
    obtain hx | rfl := hcases hx₁
    · obtain ⟨a, ha, harm⟩ := hs.ends x hx hend
      exact ⟨a, hsub a ha, harm⟩
    · obtain ⟨⟨a, ha, harm, hquestion⟩, -⟩ := hfits.settle hend
      exact ⟨a, hsub a ha, harm, hlater a ha, hquestion⟩
  case settlements =>
    intro x hx₁ y hy₁ hend hend' hsame
    obtain hx | rfl := hcases hx₁
    · obtain hy | rfl := hcases hy₁
      · exact hs.settlements x hx y hy hend hend' hsame
      · exact absurd hsame ((hfits.settle hend').2.1 x hx hend)
    · obtain hy | rfl := hcases hy₁
      · exact absurd hsame.symm ((hfits.settle hend).2.1 y hy hend')
      · rfl
  case exclusive =>
    intro x hx₁ r hr₁ hend hreply hsame
    obtain hx | rfl := hcases hx₁
    · obtain hr | rfl := hcases hr₁
      · exact hs.exclusive x hx r hr hend hreply hsame
      · exact absurd hsame ((hfits.reply hreply).2.2 x hx hend)
    · obtain hr | rfl := hcases hr₁
      · by_contra hdecision
        exact (hfits.settle hend).2.2.2 hdecision r hr hreply hsame.symm
      · exact absurd hend hreply.not_end
  case settledBy =>
    intro x hx₁ hend hdecision
    obtain hx | rfl := hcases hx₁
    · obtain ⟨r, hr, hrest⟩ := hs.settledBy x hx hend hdecision
      exact ⟨r, hsub r hr, hrest⟩
    · obtain ⟨r, hr, hrest⟩ := (hfits.settle hend).2.2.1 hdecision
      exact ⟨r, hsub r hr, hrest⟩
  case older =>
    intro a ha₁ b hb₁ harm hbarm hsame hsome hlt
    obtain ha | rfl := hcases ha₁
    · refine Closed.mono ?_ hsub fun _ h => h
      obtain hb | rfl := hcases hb₁
      · exact hs.older a ha b hb harm hbarm hsame hsome hlt
      · exact (hfits.arm hbarm).2.2.2 a ha harm hsame hsome
    · obtain hb | rfl := hcases hb₁
      · exact absurd (hlater b hb) hlt.not_gt
      · exact absurd hlt (Nat.lt_irrefl _)

theorem Fits.plain {kind : PlainKind} (hkind : e.kind = .plain kind) (hseq : e.seq = nextSeq rows) :
    Fits rows receipts e where
  seq := hseq
  directed h := by
    have := h.symm.trans hkind
    cases this
  arm h := by
    have := h.2.symm.trans hkind
    cases this
  reply h := by
    have := h.2.symm.trans hkind
    cases this
  settle h := by
    have := h.2.1.symm.trans hkind
    cases this

end GoalFlight.Mailbox
