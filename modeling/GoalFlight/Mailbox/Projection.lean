import GoalFlight.Mailbox.Outcomes

/-!
# Mailbox: a message is projected once

`append_message_view` is called any number of times with one envelope, between the steps of the
other writers.  A plain message finds the row that has its id, a reply the one reply of its wait;
either is found from then on, as rows are only added, and a wait has one arm and one reply.

The row is lost where it is written behind a line that has no newline.  `projected_once` is about
the runs in which nothing is appended to a mailbox whose last line was cut.
-/

namespace GoalFlight.Mailbox

open Resumption
open Capacity (strip)

/-! ### The calls -/

/-- A message envelope, with the text that is shown to the worker. -/
structure Envelope where
  dispatchId : String
  text : String
  id : String
  replyTo : Option String
  decision : Option String
  named : id ≠ ""

namespace Envelope

variable (e : Envelope)

/-- What `append_message_view` has checked under the lock; the others are refused before. -/
def validation : Option Validation :=
  match e.replyTo with
  | some waitId =>
    if strip waitId = "" ∨ oneLine (strip e.text) = false then none
    else
      some (validateReply e.dispatchId (strip waitId) (strip e.text)
        (e.decision.map normalizedDecision) (some e.id))
  | none => if e.decision ≠ none then none else some (validateMessage e.dispatchId e.text (some e.id))

end Envelope

/-- The mailbox and its processes, with what the calls have returned and how many rows they have
added. -/
structure Projections where
  mail : MailState
  returned : List Row
  added : ℕ

/-- A call with the envelope, or a step of the others. -/
inductive ProjectionAction
  | call (w : MailAnswer)
  | other (a : MailAction)

namespace Projections

variable (writes : MailAnswer → Written) (e : Envelope)

/-- One step.  A call whose write is cut has ended without a result. -/
def step (f : Projections) : ProjectionAction → Projections
  | .other a => { f with mail := Resumption.step (MailCall.program writes) f.mail a }
  | .call w =>
    let s := f.mail.shared
    match e.validation.map (s.validated w) with
    | some (.ok (.existing row)) => { f with returned := row :: f.returned }
    | some (.ok (.fresh entry)) =>
      let row := entry.numbered s.rows
      { mail := f.mail.environment (s.append (writes w) (some row))
        returned := if writes w = .whole then row :: f.returned else f.returned
        added := if writes w = .part then f.added else f.added + 1 }
    | _ => f

/-- **A call is the section** of `append_message_view`. -/
theorem step_call_mail (f : Projections) (w : MailAnswer) :
    (f.step writes e (.call w)).mail.shared =
      (alone (appendMessageView writes e.dispatchId e.text (some e.id) e.replyTo e.decision)
        f.mail.shared [w]).1 := by
  have hid : (some e.id).bind truthy = some e.id := truthy_of_ne e.named
  have happend : ∀ prepare rest, e.validation = some prepare →
      (f.step writes e (.call w)).mail.shared =
        (alone (appendSteerEntry writes prepare rest) f.mail.shared [w]).1 := by
    intro prepare rest h
    unfold step appendSteerEntry
    rw [h]
    simp only [alone, alone_nil, Option.map_some]
    split
    · rename_i hanswer
      rw [Option.some.inj hanswer]
    · rename_i hanswer
      rw [Option.some.inj hanswer]
      rfl
    · rename_i hexisting hfresh
      split
      · rename_i entry hanswer
        exact absurd (congrArg some hanswer) (hfresh entry)
      · rfl
  have hnone : e.validation = none → (f.step writes e (.call w)).mail.shared = f.mail.shared := by
    intro h
    unfold step
    rw [h]
    rfl
  unfold appendMessageView
  unfold Envelope.validation at happend hnone
  split
  · rename_i waitId hreply
    rw [hreply] at happend hnone
    unfold appendWorkerWaitReply
    rw [hid]
    split
    · rename_i hrefused
      exact hnone (if_pos hrefused)
    · rename_i hrefused
      exact happend _ _ (if_neg hrefused)
  · rename_i hreply
    rw [hreply] at happend hnone
    split
    · rename_i hrefused
      exact hnone (if_pos hrefused)
    · rename_i hrefused
      exact happend _ _ (if_neg hrefused)

/-- An empty mailbox. -/
def start : Projections := ⟨idle .empty, [], 0⟩

/-- **The condition**: where a row can be appended the last line ends with a newline. -/
def Condition (f : Projections) : ProjectionAction → Prop
  | .other a => Resumption.Condition (fun _ => True) Unbroken f.mail a
  | .call _ => ∀ prepare ∈ e.validation, Unbroken (.append prepare) f.mail.shared

/-- **Projected once**: the calls have added at most one row; what they have returned is one row,
which can be read; and a call that gets to read the mailbox returns it, and leaves the mailbox. -/
def Once (f : Projections) : Prop :=
  f.added ≤ 1 ∧ ∀ r ∈ f.returned, (∀ r' ∈ f.returned, r' = r) ∧ r ∈ f.mail.shared.rows ∧
    ∀ w, w.busy = false → w.unreadable = false →
      f.step writes e (.call w) = { f with returned := r :: f.returned }

end Projections

/-! ### A row that is found again -/

/-- The row is there, and what is validated returns it. -/
def Found (prepare : Validation) (rows : List Row) (r : Row) : Prop :=
  r ∈ rows ∧ ∀ w, prepare w rows = .ok (.existing r)

/-- **A row is found from then on**: one that was found, and one that was appended. -/
structure Idempotent (prepare : Validation) : Prop where
  existing : ∀ {rows rows' : List Row} {receipts receipts' w r}, SoundRows rows receipts →
    SoundRows rows' receipts' → rows <+: rows' → prepare w rows = .ok (.existing r) →
    Found prepare rows' r
  fresh : ∀ {rows rows' : List Row} {receipts receipts' w entry}, SoundRows rows receipts →
    SoundRows rows' receipts' → rows ++ [entry.numbered rows] <+: rows' →
    prepare w rows = .ok (.fresh entry) → Found prepare rows' (entry.numbered rows)

section

variable {rows : List Row} {receipts : List (String × ℕ)} {dispatchId waitId text id : String}
  {decision : Option String} {w : MailAnswer}

theorem idempotent_validateMessage (hid : id ≠ "") :
    Idempotent (validateMessage dispatchId text (some id)) := by
  have htruthy : (some id).bind truthy ≠ none := by
    show truthy id ≠ none
    rw [truthy_of_ne hid]
    exact Option.some_ne_none id
  have hfound : ∀ {rows r}, rows.find? (fun e => (some id).bind truthy ≠ none ∧
        e.kind = .plain .message ∧ e.context.envelopeId = some id) = some r →
      Found (validateMessage dispatchId text (some id)) rows r := by
    intro rows r h
    refine ⟨List.mem_of_find?_eq_some h, fun w => ?_⟩
    unfold validateMessage
    rw [h]
  constructor
  case existing =>
    intro rows rows' _ _ w r _ _ hlater h
    unfold validateMessage at h
    simp only at h
    split at h
    · rename_i r' hr'
      cases h
      exact hfound (hlater.find?_eq_some hr')
    · cases h
  case fresh =>
    intro rows rows' _ _ w entry _ _ hlater h
    unfold validateMessage at h
    simp only at h
    split at h
    · cases h
    · rename_i hnone
      cases h
      refine hfound (hlater.find?_eq_some ?_)
      rw [List.find?_append, hnone, Option.none_or]
      refine List.find?_cons_of_pos ?_
      exact decide_eq_true ⟨htruthy, rfl, rfl⟩

/-- What a reply has to answer: the arm of its wait, with a deadline. -/
def Answerable (rows : List Row) (dispatchId waitId : String) : Prop :=
  ∃ a ∈ rows, a.IsArm ∧ a.dispatchId = some dispatchId ∧ a.questionId = some waitId ∧
    ∃ deadline, a.context.deadlineAwakeMonoNs = some deadline ∧ ¬ deadline ≤ 0

theorem validateReply_ok {p : Prepared}
    (h : validateReply dispatchId waitId text decision (some id) w rows = .ok p) :
    Answerable rows dispatchId waitId ∧
      match p with
      | .existing r => r ∈ rows ∧ r.IsReply ∧ r.replyTo = some waitId ∧ r.context.messageId = some id
      | .fresh entry =>
        entry.IsReply ∧ entry.replyTo = truthy waitId ∧ entry.context.messageId = some id := by
  unfold validateReply at h
  simp only at h
  split at h
  · cases h
  · rename_i arm harmed
    have ha : arm ∈ rows := List.mem_reverse.mp (List.mem_of_find?_eq_some harmed)
    have hfound := List.find?_some harmed
    obtain ⟨harm, hdispatch, hquestion⟩ := of_decide_eq_true hfound
    split at h
    · cases h
    · rename_i deadline hdeadline
      by_cases hpast : deadline ≤ 0
      · rw [if_pos hpast] at h
        cases h
      rw [if_neg hpast] at h
      refine ⟨⟨arm, ha, harm, hdispatch, hquestion, deadline, hdeadline, hpast⟩, ?_⟩
      split at h
      · rename_i r hposted
        cases h
        have hr := (List.mem_filter.mp (List.mem_of_find?_eq_some hposted))
        have hreply := of_decide_eq_true hr.2
        have hsame := List.find?_some hposted
        exact ⟨hr.1, hreply.2.1, hreply.2.2.2, (of_decide_eq_true hsame).2.2⟩
      · split at h
        · cases h
        · split at h
          · cases h
          · split at h
            · cases h
            · cases h
              exact ⟨⟨rfl, rfl⟩, rfl, rfl⟩

/-- **The reply of a wait is found** by its message, settled or not. -/
theorem SoundRows.found_reply (hs : SoundRows rows receipts)
    (hwait : Answerable rows dispatchId waitId) {r : Row} (hr : r ∈ rows) (hreply : r.IsReply)
    (hto : r.replyTo = some waitId) (hid : r.context.messageId = some id) :
    Found (validateReply dispatchId waitId text decision (some id)) rows r := by
  obtain ⟨a, ha, harm, hdispatch, hquestion, deadline, hdeadline, hpast⟩ := hwait
  refine ⟨hr, fun w => ?_⟩
  have harmed : rows.reverse.find? (fun e =>
      e.IsArm ∧ e.dispatchId = some dispatchId ∧ e.questionId = some waitId) = some a := by
    have hsome : (rows.reverse.find? fun e => e.IsArm ∧ e.dispatchId = some dispatchId ∧
        e.questionId = some waitId).isSome :=
      List.find?_isSome.mpr
        ⟨a, List.mem_reverse.mpr ha, decide_eq_true ⟨harm, hdispatch, hquestion⟩⟩
    obtain ⟨b, hb⟩ := Option.isSome_iff_exists.mp hsome
    have hfound := List.find?_some hb
    obtain ⟨hbarm, -, hbquestion⟩ := of_decide_eq_true hfound
    rw [hb, hs.arms b (List.mem_reverse.mp (List.mem_of_find?_eq_some hb)) a ha hbarm harm
      (hbquestion.trans hquestion.symm)]
  have hname : a.waitId = waitId :=
    Option.some.inj ((hs.named_waitId ha harm).symm.trans hquestion)
  have hreplies : workerWaitReplies rows dispatchId waitId a.seq = [r] := by
    have hsame : a.dispatchId.getD "" = dispatchId := by rw [hdispatch]; rfl
    rw [← hname]
    obtain ⟨-, hnone⟩ | ⟨r', hone, hr', hreply', hto'⟩ :=
      hs.workerWaitReplies_cases ha harm hsame
    · exact absurd (hto.trans hquestion.symm) (hnone r hr hreply)
    · rw [hone, hs.replies r' hr' r hr hreply' hreply
        (hto'.trans (hquestion.trans hto.symm))]
  unfold validateReply
  simp only [harmed, hdeadline, hreplies, if_neg hpast]
  have hposted : [r].find? (fun r' => [r].length = 1 ∧ some id ≠ none ∧
      r'.context.messageId = some id) = some r := by simp [hid]
  rw [hposted]

theorem idempotent_validateReply (hwaitId : waitId ≠ "") :
    Idempotent (validateReply dispatchId waitId text decision (some id)) := by
  have hlater : ∀ {rows rows' : List Row}, rows <+: rows' → Answerable rows dispatchId waitId →
      Answerable rows' dispatchId waitId := by
    rintro rows rows' hlater ⟨a, ha, h⟩
    exact ⟨a, hlater.subset ha, h⟩
  constructor
  case existing =>
    intro rows rows' _ _ w r _ hs hrows h
    obtain ⟨hwait, hr, hreply, hto, hid⟩ := validateReply_ok h
    exact hs.found_reply (hlater hrows hwait) (hrows.subset hr) hreply hto hid
  case fresh =>
    intro rows rows' _ _ w entry _ hs hrows h
    obtain ⟨hwait, hreply, hto, hid⟩ := validateReply_ok h
    exact hs.found_reply (hlater ((List.prefix_append _ _).trans hrows) hwait)
      (hrows.subset (List.mem_append_right _ List.mem_cons_self)) hreply
      (hto.trans (truthy_of_ne hwaitId)) hid

end

variable {prepare : Validation}

theorem Envelope.idempotent {e : Envelope}
    (h : e.validation = some prepare) : Idempotent prepare := by
  unfold Envelope.validation at h
  split at h
  · obtain ⟨hwait, h⟩ := Option.ite_none_left_eq_some.mp h
    cases h
    exact idempotent_validateReply (not_or.mp hwait).1
  · obtain ⟨-, h⟩ := Option.ite_none_left_eq_some.mp h
    cases h
    exact idempotent_validateMessage e.named

theorem Envelope.keeps {e : Envelope} (h : e.validation = some prepare)
    {rows : List Row} {receipts : List (String × ℕ)} (hs : SoundRows rows receipts)
    (w : MailAnswer) : ∃ sort, Keeps rows receipts sort (prepare w rows) := by
  unfold Envelope.validation at h
  split at h
  · obtain ⟨-, h⟩ := Option.ite_none_left_eq_some.mp h
    cases h
    exact ⟨_, keeps_validateReply hs⟩
  · obtain ⟨-, h⟩ := Option.ite_none_left_eq_some.mp h
    cases h
    exact ⟨_, keeps_validateMessage⟩

/-! ### Runs of the calls -/

section

variable {writes : MailAnswer → Written} {e : Envelope} {f : Projections}

/-- **What a run of calls keeps**: what they have returned is found, and so is a row if they have
added one. -/
structure Projecting (writes : MailAnswer → Written) (e : Envelope) (f : Projections) : Prop where
  safe : AllSafe LaterMailbox (SoundMailbox writes) Unbroken f.mail
  returned : ∀ r ∈ f.returned, ∃ prepare ∈ e.validation, Found prepare f.mail.shared.rows r
  added : f.added = 0 ∨
    f.added = 1 ∧ ∃ prepare ∈ e.validation, ∃ r, Found prepare f.mail.shared.rows r

theorem Found.later {s s' : SteerMailbox} {r : Row}
    (h : Found prepare s.rows r) (hprepare : Idempotent prepare) (hs : SoundMailbox writes s)
    (hs' : SoundMailbox writes s') (hlater : LaterMailbox s s') : Found prepare s'.rows r :=
  hprepare.existing hs.rows hs'.rows hlater.rows (h.2 default)

/-- What the others do keeps it. -/
theorem Projecting.environment (h : Projecting writes e f) {mail : MailState}
    (hsafe : AllSafe LaterMailbox (SoundMailbox writes) Unbroken mail)
    (hlater : LaterMailbox f.mail.shared mail.shared) :
    Projecting writes e { f with mail } where
  safe := hsafe
  returned r hr := by
    obtain ⟨prepare, hprepare, hfound⟩ := h.returned r hr
    exact ⟨prepare, hprepare, hfound.later (Envelope.idempotent hprepare) h.safe.inv hsafe.inv hlater⟩
  added := by
    refine h.added.imp_right fun ⟨hone, prepare, hprepare, r, hfound⟩ => ⟨hone, prepare, hprepare, r, ?_⟩
    exact hfound.later (Envelope.idempotent hprepare) h.safe.inv hsafe.inv hlater

theorem validated_ok {s : SteerMailbox} {w : MailAnswer} {p : Prepared}
    (h : s.validated w prepare = .ok p) : prepare w s.rows = .ok p := by
  unfold SteerMailbox.validated at h
  split at h
  · cases h
  · split at h
    · cases h
    · exact h

/-- **A step** keeps it. -/
theorem Projecting.step (h : Projecting writes e f) {a : ProjectionAction}
    (hcond : f.Condition e a) : Projecting writes e (f.step writes e a) := by
  cases a with
  | other a =>
    obtain ⟨hsafe, hlater⟩ := h.safe.step LaterMailbox.refl LaterMailbox.trans
      (fun c _ _ _ => safe_mailCall c) hcond
    exact h.environment hsafe hlater
  | call w =>
    unfold Projections.step
    simp only
    split
    · rename_i row hanswer
      obtain ⟨prepare, hprepare, hvalid⟩ := Option.map_eq_some_iff.mp hanswer
      have hfound : Found prepare f.mail.shared.rows row :=
        (Envelope.idempotent hprepare).existing h.safe.inv.rows h.safe.inv.rows List.prefix_rfl
          (validated_ok hvalid)
      refine ⟨h.safe, fun r hr => ?_, h.added⟩
      rcases List.mem_cons.mp hr with rfl | hr
      · exact ⟨prepare, hprepare, hfound⟩
      · exact h.returned r hr
    · rename_i entry hanswer
      obtain ⟨prepare, hprepare, hvalid⟩ := Option.map_eq_some_iff.mp hanswer
      have hfresh := validated_ok hvalid
      have hidempotent := Envelope.idempotent hprepare
      have htorn : f.mail.shared.torn = false := hcond prepare hprepare ⟨w, entry, hvalid⟩
      -- A row that can be found would have been found.
      have hnone : ∀ prepare' ∈ e.validation, ∀ r, ¬ Found prepare' f.mail.shared.rows r := by
        intro prepare' hprepare' r hfound
        cases hprepare.symm.trans hprepare'
        cases hfresh.symm.trans (hfound.2 w)
      have hreturned : f.returned = [] := List.eq_nil_iff_forall_not_mem.mpr fun r hr => by
        obtain ⟨prepare', hprepare', hfound⟩ := h.returned r hr
        exact hnone prepare' hprepare' r hfound
      have hadded : f.added = 0 := h.added.resolve_right fun ⟨_, prepare', hprepare', r, hfound⟩ =>
        hnone prepare' hprepare' r hfound
      obtain ⟨_, hkeeps⟩ := Envelope.keeps hprepare h.safe.inv.rows w
      obtain ⟨hlater, hsound⟩ := h.safe.inv.append htorn (hkeeps.fresh entry hfresh).1 w
      have hfound : writes w ≠ .part → Found prepare
          (f.mail.shared.append (writes w) (some (entry.numbered f.mail.shared.rows))).rows
          (entry.numbered f.mail.shared.rows) := by
        intro hpart
        refine hidempotent.fresh h.safe.inv.rows hsound.rows ?_ hfresh
        rw [rows_append htorn, if_neg hpart]
        exact List.prefix_rfl
      refine ⟨h.safe.environment hsound fun q P hP => hP.later (R := LaterMailbox) LaterMailbox.trans hlater,
        fun r hr => ?_, ?_⟩
      · rw [hreturned] at hr
        simp only at hr
        split at hr
        · rename_i hwhole
          rw [List.mem_singleton.mp hr]
          exact ⟨prepare, hprepare, hfound (by rw [hwhole]; exact nofun)⟩
        · cases hr
      · rw [hadded]
        simp only
        split
        · exact .inl rfl
        · rename_i hpart
          exact .inr ⟨rfl, prepare, hprepare, _, hfound hpart⟩
    · exact h

/-- **A message is projected once**, in every run of calls with its envelope and steps of the others
in which nothing is appended to a mailbox whose last line was cut. -/
theorem projected_once (writes : MailAnswer → Written) (e : Envelope)
    {actions : List ProjectionAction}
    (hmeets : Machine.Meets (Projections.step writes e) (Projections.Condition e) .start actions) :
    (Machine.run (Projections.step writes e) .start actions).Once writes e := by
  have hstart : Projecting writes e .start :=
    ⟨allSafe_idle sound_empty, fun _ h => absurd h List.not_mem_nil, .inl rfl⟩
  have h := Machine.run_invariant_of_meets (fun _ _ hf hcond => hf.step hcond) hstart hmeets
  generalize Machine.run (Projections.step writes e) .start actions = f at h
  refine ⟨?_, fun r hr => ?_⟩
  · rcases h.added with hnone | ⟨hone, -⟩
    · exact hnone.trans_le (Nat.zero_le 1)
    · exact hone.le
  · obtain ⟨prepare, hprepare, hfound⟩ := h.returned r hr
    refine ⟨fun r' hr' => ?_, hfound.1, fun w hbusy hreadable => ?_⟩
    · obtain ⟨prepare', hprepare', hfound'⟩ := h.returned r' hr'
      cases hprepare.symm.trans hprepare'
      have hsame := (hfound'.2 default).symm.trans (hfound.2 default)
      cases hsame
      rfl
    · have hanswer : f.mail.shared.validated w prepare = .ok (.existing r) := by
        rw [SteerMailbox.validated, hbusy, hreadable]
        exact hfound.2 w
      have hvalidation : e.validation = some prepare := hprepare
      unfold Projections.step
      simp only [hvalidation, Option.map_some, hanswer]

end

/-- An envelope with a plain message. -/
def plainEnvelope : Envelope := ⟨"d", "look again", "m1", none, none, by decide⟩

/-- It is posted twice, with a wait of the worker between. -/
def postedTwice : List ProjectionAction :=
  [.call (quietAnswer 5 "" .whole), .other (.call 0 (.wait someNeed 0)),
    .other (.turn 0 (quietAnswer 10 "w" .whole)), .call (quietAnswer 20 "" .whole)]

theorem projected_once_twice :
    (Machine.run (Projections.step (fun w => w.written) plainEnvelope) .start postedTwice).Once
      (fun w => w.written) plainEnvelope :=
  projected_once (fun w => w.written) plainEnvelope
    ⟨fun _ _ _ => rfl, trivial, trivial, fun _ _ _ => rfl, trivial⟩

/-- It is posted twice behind a row that was cut. -/
def postedBehindCut : List ProjectionAction :=
  [.other (.call 0 (.steer .steering .toWorker "hold" (some "d") none none none {})),
    .other (.turn 0 (quietAnswer 5 "" .part)), .call (quietAnswer 10 "" .whole),
    .call (quietAnswer 20 "" .whole)]

/-- **A row behind a cut one is lost**, and the next call adds another. -/
theorem projected_twice_behind_cut :
    ¬ (Machine.run (Projections.step (fun w => w.written) plainEnvelope) .start postedBehindCut).Once
      (fun w => w.written) plainEnvelope := by
  rintro ⟨hadded, -⟩
  exact absurd hadded (by decide +kernel)

end GoalFlight.Mailbox
