import GoalFlight.Mailbox.Waits

/-!
# Mailbox: what is validated

Each writer reads the rows under the lock and decides there.  A row that it then appends fits
the rows that it has read, and a row that it returns instead is one of them.
-/

namespace GoalFlight.Mailbox

open Capacity (strip)

variable {rows : List Row} {receipts : List (String × ℕ)} {a e r arm entry row : Row}
  {dispatchId waitId text : String} {decision messageId : Option String} {w : MailAnswer}

/-- **What a writer keeps**: a row that it appends fits and is of its sort, and so is a row that
it returns. -/
structure Keeps (rows : List Row) (receipts : List (String × ℕ)) (sort : Row → Prop)
    (answer : Except Refusal Prepared) : Prop where
  fresh : ∀ entry, answer = .ok (.fresh entry) →
    Fits rows receipts (entry.numbered rows) ∧ sort (entry.numbered rows)
  existing : ∀ row, answer = .ok (.existing row) → row ∈ rows ∧ sort row

theorem Keeps.error {sort : Row → Prop} {refusal : Refusal} :
    Keeps rows receipts sort (.error refusal) where
  fresh _ h := by cases h
  existing _ h := by cases h

theorem Keeps.of_fresh {sort : Row → Prop} (hfits : Fits rows receipts (entry.numbered rows))
    (hsort : sort (entry.numbered rows)) : Keeps rows receipts sort (.ok (.fresh entry)) where
  fresh e h := by
    cases h
    exact ⟨hfits, hsort⟩
  existing _ h := by cases h

theorem Keeps.of_existing {sort : Row → Prop} (hrow : row ∈ rows) (hsort : sort row) :
    Keeps rows receipts sort (.ok (.existing row)) where
  fresh _ h := by cases h
  existing e h := by
    cases h
    exact ⟨hrow, hsort⟩

theorem truthy_of_ne {value : String} (h : value ≠ "") : truthy value = some value := if_neg h

theorem Admissible.bind_truthy (h : Admissible arm decision) :
    Admissible arm (decision.bind truthy) := by
  cases decision with
  | none => exact h
  | some d =>
    obtain ⟨d', hmem, hd⟩ := h (.inr nofun)
    cases hd
    have hne : d ≠ "" := by
      rintro rfl
      simp [userConfirmDecisions] at hmem
    show Admissible arm (truthy d)
    rwa [truthy_of_ne hne]

theorem keeps_validatePlain (kind : PlainKind) (direction : Direction) (text : String)
    (dispatchId questionId replyTo decision : Option String) (context : RowContext) :
    Keeps rows receipts (fun _ => True)
      (validatePlain kind direction text dispatchId questionId replyTo decision context w rows) :=
  .of_fresh (.plain rfl rfl) trivial

theorem keeps_validateMessage :
    Keeps rows receipts (fun _ => True) (validateMessage dispatchId text messageId w rows) := by
  unfold validateMessage
  simp only
  split
  · rename_i hfound
    exact .of_existing (List.mem_of_find?_eq_some hfound) trivial
  · exact keeps_validatePlain ..

/-- **A reply fits** a wait that has neither a reply nor a settlement. -/
theorem keeps_validateReply (hs : SoundRows rows receipts) :
    Keeps rows receipts Row.IsReply
      (validateReply dispatchId waitId text decision messageId w rows) := by
  unfold validateReply
  simp only
  split
  case h_1 => exact .error
  case h_2 arm harmed =>
    have ha : arm ∈ rows := List.mem_reverse.mp (List.mem_of_find?_eq_some harmed)
    have hfound := List.find?_some harmed
    obtain ⟨harm, hdispatch, hquestion⟩ := of_decide_eq_true hfound
    have hname := hs.named_waitId ha harm
    have hid : waitId = arm.waitId := Option.some.inj (hquestion.symm.trans hname)
    subst hid
    split
    case h_1 => exact .error
    case h_2 deadline _ =>
      have hcases := hs.workerWaitReplies_cases ha harm (congrArg (Option.getD · "") hdispatch)
      by_cases hdeadline : deadline ≤ 0
      · rw [if_pos hdeadline]
        exact .error
      rw [if_neg hdeadline]
      split
      case h_1 r hposted =>
        have hr := List.mem_of_find?_eq_some hposted
        obtain ⟨hr, hreply, -⟩ :=
          (hs.mem_workerWaitReplies ha harm (congrArg (Option.getD · "") hdispatch)).mp hr
        exact .of_existing hr hreply
      case h_2 =>
        by_cases hsettled : (workerWaitSettlement rows arm.waitId arm.seq).isSome
        · rw [if_pos hsettled]
          exact .error
        rw [if_neg hsettled]
        by_cases hreplies : workerWaitReplies rows dispatchId arm.waitId arm.seq ≠ []
        · rw [if_pos hreplies]
          exact .error
        rw [if_neg hreplies]
        by_cases hdecision : ¬ Admissible arm decision
        · rw [if_pos hdecision]
          exact .error
        rw [if_neg hdecision]
        have hunsettled := hs.workerWaitSettlement_eq_none ha harm
          (Option.not_isSome_iff_eq_none.mp hsettled)
        have hunanswered : ∀ r ∈ rows, r.IsReply → r.replyTo ≠ arm.questionId := by
          obtain ⟨-, hnone⟩ | ⟨r, hone, -⟩ := hcases
          · exact hnone
          · exact absurd (hone ▸ List.cons_ne_nil _ _) hreplies
        have hto : truthy arm.waitId = arm.questionId :=
          (truthy_of_ne (hs.named arm ha harm).2).trans hname.symm
        have hsame : truthy dispatchId = some dispatchId :=
          truthy_of_ne fun h => hs.addressed arm ha harm (hdispatch.trans (congrArg some h))
        refine .of_fresh ⟨rfl, fun h => (by cases h), fun h => absurd h.2 (by simp [Row.numbered]),
          fun _ => ⟨⟨arm, ha, harm, hto.symm, hdispatch.trans hsame.symm, ?_, ?_⟩, ?_, ?_⟩,
          fun h => absurd h.2.1 (by simp [Row.numbered])⟩ ⟨rfl, rfl⟩
        · show truthy dispatchId ≠ none
          rw [hsame]
          exact Option.some_ne_none _
        · exact (not_not.mp hdecision).bind_truthy
        · show ∀ r ∈ rows, r.IsReply → r.replyTo ≠ truthy arm.waitId
          rwa [hto]
        · show ∀ e' ∈ rows, e'.IsEnd → e'.replyTo ≠ truthy arm.waitId
          rwa [hto]

/-- **A settlement fits** a wait that is not settled: one that names the reply, where there is
one. -/
theorem keeps_validateEnded (hs : SoundRows rows receipts) (ha : arm ∈ rows) (harm : arm.IsArm)
    (settlement : Settlement) :
    Keeps rows receipts (fun _ => True) (validateEnded arm settlement w rows) := by
  have hname := hs.named_waitId ha harm
  have hcases := hs.workerWaitReplies_cases ha harm rfl
  have hto : truthy arm.waitId = arm.questionId :=
    (truthy_of_ne (hs.named arm ha harm).2).trans hname.symm
  -- What is left to be seen of a settlement: that it names the reply, or that there is none.
  have hsettled : ∀ entry : Row,
      entry.direction = .toController → entry.kind = .workerWaitEnded →
      entry.replyTo = truthy arm.waitId →
      (entry.decision = some "reply" → ∃ r ∈ rows, r.IsReply ∧ r.replyTo = arm.questionId ∧
        entry.context.replySeq = some r.seq) →
      (entry.decision ≠ some "reply" → ∀ r ∈ rows, r.IsReply → r.replyTo ≠ arm.questionId) →
      Keeps rows receipts (fun _ => True)
        (if (workerWaitSettlement rows arm.waitId arm.seq).isSome then .error .alreadySettled
          else .ok (.fresh entry)) := by
    intro entry hdirection hkind hreplyTo hnames hnone
    split
    · exact .error
    · rename_i hunsettled
      have hfree := hs.workerWaitSettlement_eq_none ha harm
        (Option.not_isSome_iff_eq_none.mp hunsettled)
      have hquestion : entry.replyTo = arm.questionId := hreplyTo.trans hto
      refine .of_fresh ⟨rfl, fun h => ?_, fun h => ?_, fun h => ?_,
        fun _ => ⟨⟨arm, ha, harm, hquestion.symm⟩, ?_, ?_, ?_⟩⟩ trivial
      · have := h.symm.trans hkind
        cases this
      · have := h.2.symm.trans hkind
        cases this
      · have := h.2.symm.trans hkind
        cases this
      · show ∀ e' ∈ rows, e'.IsEnd → e'.replyTo ≠ entry.replyTo
        rwa [hquestion]
      · show entry.decision = some "reply" → ∃ r ∈ rows, r.IsReply ∧ r.replyTo = entry.replyTo ∧
          entry.context.replySeq = some r.seq
        rwa [hquestion]
      · show entry.decision ≠ some "reply" → ∀ r ∈ rows, r.IsReply → r.replyTo ≠ entry.replyTo
        rwa [hquestion]
  have hnone : workerWaitReplies rows (arm.dispatchId.getD "") arm.waitId arm.seq = [] →
      ∀ r ∈ rows, r.IsReply → r.replyTo ≠ arm.questionId := by
    intro hempty
    obtain ⟨-, hnone⟩ | ⟨r, hone, -⟩ := hcases
    · exact hnone
    · rw [hone] at hempty
      cases hempty
  unfold validateEnded
  cases settlement with
  | reply seq =>
    simp only
    split
    · rename_i hseq
      refine hsettled _ rfl rfl rfl (fun _ => ?_) fun h => absurd rfl h
      obtain ⟨hempty, -⟩ | ⟨r, hone, hr, hreply, hfor⟩ := hcases
      · rw [hempty] at hseq
        cases hseq
      · rw [hone] at hseq
        exact ⟨r, hr, hreply, hfor, congrArg some (List.cons.inj hseq).1.symm⟩
    · exact .error
  | failed =>
    simp only
    split
    case h_1 hreply => cases hreply
    case h_2 => exact .error
    case h_3 hempty _ =>
      exact hsettled _ rfl rfl rfl (fun h => absurd (Option.some.inj h) (by decide))
        fun _ => hnone hempty
  | timeout =>
    simp only
    split
    case h_1 hreply => cases hreply
    case h_2 => exact .error
    case h_3 hempty _ =>
      exact hsettled _ rfl rfl rfl (fun h => absurd (Option.some.inj h) (by decide))
        fun _ => hnone hempty

/-- **An arm fits** where the latest wait of the dispatch is over. -/
theorem keeps_validateStarted (hs : SoundRows rows receipts) {request : WaitRequest}
    {begun : MailAnswer} {deadline : ℤ} {consumed : List (String × ℕ)}
    (hconsumed : ∀ c ∈ consumed, c ∈ receipts) :
    Keeps rows receipts Row.IsArm (validateStarted request begun deadline consumed w rows) := by
  -- What is left to be seen of an arm: that the waits of its dispatch are over.
  have harmed : ∀ prior : Option (String × ℕ),
      (∀ a ∈ rows, a.IsArm → a.dispatchId = some request.dispatchId → Closed rows receipts a) →
      Keeps rows receipts Row.IsArm
        (if w.uuid = "" ∨ strip w.uuid ≠ w.uuid ∨ ∃ a ∈ rows, a.questionId = some w.uuid then
          .error .collision
        else .ok (.fresh
          { seq := 0
            awakeMonoNs := begun.now
            text := "worker waiting for controller reply"
            direction := .toController
            dispatchId := truthy request.dispatchId
            kind := .workerWaitStarted
            questionId := truthy w.uuid
            replyTo := none
            decision := none
            context := armContext request begun deadline prior })) := by
    intro prior hclosed
    split
    · exact .error
    · rename_i hid
      rw [not_or, not_or, not_not] at hid
      obtain ⟨hne, hstrip, hfree⟩ := hid
      have hquestion : truthy w.uuid = some w.uuid := truthy_of_ne hne
      have hwait : strip ((truthy w.uuid).getD "") = w.uuid := by rw [hquestion]; exact hstrip
      refine .of_fresh ⟨rfl, fun _ => rfl, fun _ => ⟨?_, ⟨?_, ?_⟩, ?_, ?_⟩,
        fun h => absurd h.2 (by simp [Row.numbered]),
        fun h => absurd h.2.1 (by simp [Row.numbered])⟩ ⟨rfl, rfl⟩
      · show truthy request.dispatchId ≠ some ""
        unfold truthy
        split
        · exact nofun
        · rename_i h
          exact fun h' => h (Option.some.inj h')
      · show truthy w.uuid = some (strip ((truthy w.uuid).getD ""))
        rw [hwait, hquestion]
      · show strip ((truthy w.uuid).getD "") ≠ ""
        rwa [hwait]
      · intro a ha _ hsame
        exact hfree ⟨a, ha, hsame.trans hquestion⟩
      · intro a ha harm hsame hsome
        refine hclosed a ha harm (hsame.trans (truthy_of_ne fun h => hsome ?_))
        rw [hsame]
        show truthy request.dispatchId = none
        exact if_pos h
  unfold validateStarted
  simp only
  split
  case h_1 hnone =>
    exact harmed none fun a ha harm hdispatch =>
      absurd hdispatch (latestWorkerWaitArm_eq_none hnone a ha harm)
  case h_2 prior hprior =>
    obtain ⟨hp, hparm, hpdispatch, hlast⟩ := latestWorkerWaitArm_eq_some hs.rising hprior
    have hname := hs.named_waitId hp hparm
    have hquestion : prior.questionId.getD "" = prior.waitId := by rw [hname]; rfl
    rw [hquestion]
    -- The others are over already.
    have hothers : Closed rows receipts prior → ∀ a ∈ rows, a.IsArm →
        a.dispatchId = some request.dispatchId → Closed rows receipts a := by
      intro hclosed a ha harm hdispatch
      rcases (hlast a ha harm hdispatch).lt_or_eq with hlt | heq
      · exact hs.older a ha prior hp harm hparm (hdispatch.trans hpdispatch.symm)
          (hdispatch ▸ Option.some_ne_none _) hlt
      · rwa [hs.eq_of_seq ha hp heq]
    split
    · rename_i hsettled
      obtain ⟨e, he, hend, hfor⟩ := workerWaitSettlement_isSome hsettled.2
      exact harmed none (hothers (.inl ⟨e, he, hend, hfor.trans hname.symm⟩))
    · split
      · exact .error
      · split
        · rename_i reply hreply
          split
          · rename_i hmem
            have hfound : reply ∈ workerWaitReplies rows request.dispatchId prior.waitId
                prior.seq := hreply ▸ List.mem_cons_self
            obtain ⟨hr, hisReply, hto⟩ := (hs.mem_workerWaitReplies hp hparm
              (congrArg (Option.getD · "") hpdispatch)).mp hfound
            exact harmed _ (hothers (.inr ⟨reply, hr, hisReply, hto, prior.waitId,
              hto.trans hname, hconsumed _ hmem⟩))
          · exact .error
        · exact .error

end GoalFlight.Mailbox
