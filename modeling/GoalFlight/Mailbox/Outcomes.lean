import GoalFlight.Mailbox.Validated

/-!
# Mailbox: one outcome of a question, and the reply that is not lost

Every append keeps what the rows of a mailbox keep, so a question has one outcome, whoever
posts and settles.  A dispatch has at most one wait that is not over, and an admitted reply that
is not known to have reached the worker is the reply of that wait: the next wait reports it, and
none is armed before.

A row that is written behind a line without a newline is lost with it.  `reply_redelivered` is
about the runs in which nothing is appended to a mailbox whose last line was cut.
-/

namespace GoalFlight.Mailbox

open Resumption

/-- **A later mailbox**: rows and receipts are added. -/
structure LaterMailbox (s s' : SteerMailbox) : Prop where
  rows : s.rows <+: s'.rows
  receipts : ∀ c ∈ s.receipts, c ∈ s'.receipts

/-- **What is right of a wait**: a reply that was owed when it first read the mailbox is what it
reports, unless it was not let read. -/
def WaitReport.Right (rep : WaitReport) : Prop :=
  ∀ r ∈ rep.owed, rep.result = .reply r ∨ rep.result = .deadline

/-- **The invariant of a mailbox**, where the writes go so. -/
structure SoundMailbox (writes : MailAnswer → Written) (s : SteerMailbox) : Prop where
  rows : SoundRows s.rows s.receipts
  admitted : ∀ r ∈ s.admitted, r ∈ s.rows ∧ r.IsReply
  waits : ∀ rep ∈ s.waits, rep.Right
  whole : (∀ w, writes w = .whole) → s.torn = false

/-- **The condition**: where a row can be appended the last line ends with a newline. -/
def Unbroken : MailLabel → SteerMailbox → Prop
  | .free, _ => True
  | .append prepare, s => (∃ w entry, s.validated w prepare = .ok (.fresh entry)) → s.torn = false

variable {writes : MailAnswer → Written} {s s' : SteerMailbox} {P : MailProgram}
  {prepare : Validation} {rest : Except Refusal Row → MailProgram} {sort : Row → Prop}
  {owed : List Row} {arm r : Row} {request : WaitRequest} {dispatchId : String}

/-- The program is safe where the writes go so. -/
abbrev SafeMail (writes : MailAnswer → Written) (P : MailProgram) (s : SteerMailbox) : Prop :=
  Safe LaterMailbox (SoundMailbox writes) Unbroken P s

/-! ### Sections -/

theorem LaterMailbox.refl (s : SteerMailbox) : LaterMailbox s s :=
  ⟨List.prefix_rfl, fun _ h => h⟩

theorem LaterMailbox.trans {s₁ s₂ s₃ : SteerMailbox} (h : LaterMailbox s₁ s₂)
    (h' : LaterMailbox s₂ s₃) : LaterMailbox s₁ s₃ where
  rows := h.rows.trans h'.rows
  receipts c hc := h'.receipts c (h.receipts c hc)

theorem LaterMailbox.mem {e : Row} (h : LaterMailbox s s') (he : e ∈ s.rows) : e ∈ s'.rows :=
  h.rows.subset he

theorem rows_append (htorn : s.torn = false) (written : Written) (row : Option Row) :
    (s.append written row).rows =
      s.rows ++ (if written = .part then none else row).toList := by
  unfold SteerMailbox.append SteerMailbox.rows
  rw [htorn]
  simp only [Bool.false_eq_true, if_false, List.filterMap_append]
  split
  · rfl
  · cases row <;> rfl

/-- **A row that fits is appended**, whole or not. -/
theorem SoundMailbox.append (hs : SoundMailbox writes s) (htorn : s.torn = false) {row : Row}
    (hfits : Fits s.rows s.receipts row) (w : MailAnswer) :
    LaterMailbox s (s.append (writes w) (some row)) ∧
      SoundMailbox writes (s.append (writes w) (some row)) := by
  have hrows := rows_append htorn (writes w) (some row)
  have hlater : LaterMailbox s (s.append (writes w) (some row)) :=
    ⟨hrows ▸ List.prefix_append _ _, fun _ h => h⟩
  refine ⟨hlater, ?_, fun r hr => ?_, hs.waits, fun hwhole => ?_⟩
  · show SoundRows (s.append (writes w) (some row)).rows s.receipts
    rw [hrows]
    split
    · simpa using hs.rows
    · exact hs.rows.snoc hfits
  · obtain ⟨hmem, hreply⟩ := hs.admitted r hr
    exact ⟨hlater.mem hmem, hreply⟩
  · show decide (writes w ≠ .whole) = false
    simp [hwhole w]

theorem safe_look {rest : MailAnswer → SteerMailbox → MailProgram}
    (hrest : ∀ s', LaterMailbox s s' → SoundMailbox writes s' → ∀ w,
      SafeMail writes (rest w s') s') : SafeMail writes (look rest) s :=
  fun s' hlater hs _ w => ⟨.refl s', hs, hrest s' hlater hs w⟩

theorem safe_note {write : MailAnswer → SteerMailbox → SteerMailbox}
    {rest : MailAnswer → MailProgram}
    (hwrite : ∀ s', LaterMailbox s s' → SoundMailbox writes s' → ∀ w,
      LaterMailbox s' (write w s') ∧ SoundMailbox writes (write w s') ∧
        SafeMail writes (rest w) (write w s')) : SafeMail writes (note write rest) s :=
  fun s' hlater hs _ w => hwrite s' hlater hs w

/-- **An append is safe** when its writer keeps the rows, and what follows is safe with a row of
its sort that is there. -/
theorem safe_append
    (hkeeps : ∀ s', LaterMailbox s s' → SoundMailbox writes s' → ∀ w,
      Keeps s'.rows s'.receipts sort (prepare w s'.rows))
    (hok : ∀ s', LaterMailbox s s' → ∀ row ∈ s'.rows, sort row → SafeMail writes (rest (.ok row)) s')
    (herror : ∀ s', LaterMailbox s s' → ∀ refusal, SafeMail writes (rest (.error refusal)) s') :
    SafeMail writes (appendSteerEntry writes prepare rest) s := by
  intro s' hlater hs hguard w
  simp only
  have hvalid : s'.validated w prepare = prepare w s'.rows ∨
      ∃ refusal, s'.validated w prepare = .error refusal := by
    unfold SteerMailbox.validated
    split
    · exact .inr ⟨_, rfl⟩
    · split
      · exact .inr ⟨_, rfl⟩
      · exact .inl rfl
  match hanswer : s'.validated w prepare with
  | .error refusal => exact ⟨.refl s', hs, herror s' hlater refusal⟩
  | .ok prepared =>
    have hprepare : prepare w s'.rows = .ok prepared := by
      rcases hvalid with heq | ⟨refusal, heq⟩
      · exact heq.symm.trans hanswer
      · cases heq.symm.trans hanswer
    have hkept := hkeeps s' hlater hs w
    match prepared with
    | .existing row =>
      obtain ⟨hrow, hsort⟩ := hkept.existing row hprepare
      exact ⟨.refl s', hs, hok s' hlater row hrow hsort⟩
    | .fresh entry =>
      obtain ⟨hfits, hsort⟩ := hkept.fresh entry hprepare
      have htorn : s'.torn = false := hguard ⟨w, entry, hanswer⟩
      obtain ⟨hgrown, hsound⟩ := hs.append htorn hfits w
      refine ⟨hgrown, hsound, ?_⟩
      simp only
      split
      · rename_i hwhole
        refine hok _ (hlater.trans hgrown) _ ?_ hsort
        rw [rows_append htorn, hwhole]
        exact List.mem_append_right _ List.mem_cons_self
      · trivial

/-! ### Reports -/

theorem safe_report {result : WaitResult} (hright : (⟨owed, result⟩ : WaitReport).Right)
    (hrest : ∀ s', LaterMailbox s s' → SafeMail writes P s') :
    SafeMail writes (report owed result P) s := by
  refine safe_note fun s' hlater hs w => ?_
  split
  · have hgrown : LaterMailbox s' { s' with waits := ⟨owed, result⟩ :: s'.waits } :=
      ⟨List.prefix_rfl, fun _ h => h⟩
    refine ⟨hgrown, ⟨hs.rows, hs.admitted, fun rep hrep => ?_, hs.whole⟩,
      hrest _ (hlater.trans hgrown)⟩
    rcases List.mem_cons.mp hrep with rfl | hrep
    · exact hright
    · exact hs.waits rep hrep
  · exact ⟨.refl s', hs, trivial⟩

theorem safe_deliverReply (hright : ∀ r' ∈ owed, r' = r) :
    SafeMail writes (deliverReply owed r) s := by
  refine safe_note fun s' hlater hs w => ?_
  split
  · have hreceipts : ∀ c ∈ s'.receipts,
        c ∈ if w.tailed then (r.replyTo.getD "", r.seq) :: s'.receipts else s'.receipts := by
      intro c hc
      split
      · exact List.mem_cons_of_mem _ hc
      · exact hc
    refine ⟨⟨List.prefix_rfl, hreceipts⟩,
      ⟨hs.rows.mono_receipts hreceipts, hs.admitted, fun rep hrep => ?_, hs.whole⟩, trivial⟩
    rcases List.mem_cons.mp hrep with rfl | hrep
    · exact fun r' hr' => .inl (hright r' hr' ▸ rfl)
    · exact hs.waits rep hrep
  · exact ⟨.refl s', hs, trivial⟩

theorem right_nil {result : WaitResult} : (⟨[], result⟩ : WaitReport).Right :=
  fun _ h => absurd h List.not_mem_nil

/-! ### Programs -/

theorem safe_appendWorkerWaitEnded (harm : arm ∈ s.rows ∧ arm.IsArm) (settlement : Settlement)
    (hok : ∀ s', LaterMailbox s s' → ∀ row, SafeMail writes (rest (.ok row)) s')
    (herror : ∀ s', LaterMailbox s s' → ∀ refusal, SafeMail writes (rest (.error refusal)) s') :
    SafeMail writes (appendWorkerWaitEnded writes arm settlement rest) s := by
  unfold appendWorkerWaitEnded
  split
  · exact herror s (.refl s) _
  · exact safe_append
      (fun s' hlater hs w =>
        keeps_validateEnded hs.rows (hlater.mem harm.1) harm.2 settlement)
      (fun s' hlater row _ _ => hok s' hlater row) herror

theorem safe_appendWorkerWaitReply (waitId text : String) (decision messageId : Option String) :
    SafeMail writes (appendWorkerWaitReply writes dispatchId waitId text decision messageId) s := by
  unfold appendWorkerWaitReply
  split
  · trivial
  · refine safe_append (fun s' _ hs w => keeps_validateReply hs.rows) (fun s' _ row hrow hsort => ?_)
      fun _ _ _ => trivial
    refine safe_note fun s'' hlater hs w => ⟨⟨List.prefix_rfl, fun _ h => h⟩,
      ⟨hs.rows, fun r hr => ?_, hs.waits, hs.whole⟩, trivial⟩
    rcases List.mem_cons.mp hr with rfl | hr
    · exact ⟨hlater.mem hrow, hsort⟩
    · exact hs.admitted r hr

theorem safe_appendMessageView (text : String) (messageId replyTo decision : Option String) :
    SafeMail writes (appendMessageView writes dispatchId text messageId replyTo decision) s := by
  unfold appendMessageView
  split
  · exact safe_appendWorkerWaitReply ..
  · split
    · trivial
    · exact safe_append (fun _ _ _ _ => keeps_validateMessage) (fun _ _ _ _ _ => trivial)
        fun _ _ _ => trivial

theorem safe_runWorkerWaitCleanup (operation : CleanupOperation) (waitId : String) (armSeq : ℕ) :
    SafeMail writes (runWorkerWaitCleanup writes operation dispatchId waitId armSeq) s := by
  refine safe_look fun s' _ hs w => ?_
  split
  · trivial
  · simp only
    split
    · trivial
    · rename_i arm hfound
      have hmem : arm ∈ s'.rows := List.mem_of_find?_eq_some hfound
      have hprop := List.find?_some hfound
      have hkind := (of_decide_eq_true hprop).2.1
      have harm : arm.IsArm := ⟨hs.rows.directed arm hmem hkind, hkind⟩
      cases operation with
      | timeout =>
        exact safe_appendWorkerWaitEnded ⟨hmem, harm⟩ _ (fun _ _ _ => trivial) fun _ _ _ => trivial
      | failed =>
        exact safe_appendWorkerWaitEnded ⟨hmem, harm⟩ _ (fun _ _ _ => trivial) fun _ _ _ => trivial
      | end_ seq =>
        simp only
        split
        · exact safe_appendWorkerWaitEnded ⟨hmem, harm⟩ _ (fun _ _ _ => trivial)
            fun _ _ _ => trivial
        · trivial
      | receipt seq =>
        simp only
        split
        · refine safe_note fun s'' _ hs w => ?_
          split
          · exact ⟨.refl s'', hs, trivial⟩
          · have hreceipts : ∀ c ∈ s''.receipts, c ∈ (waitId, seq) :: s''.receipts :=
              fun c hc => List.mem_cons_of_mem _ hc
            exact ⟨⟨List.prefix_rfl, hreceipts⟩,
              ⟨hs.rows.mono_receipts hreceipts, hs.admitted, hs.waits, hs.whole⟩, trivial⟩
        · trivial

theorem latest_of_staleSettlement {w : MailAnswer} {rows : List Row} {prior : Row}
    {settlement : Settlement} (h : staleSettlement w rows dispatchId = some (prior, settlement)) :
    latestWorkerWaitArm rows dispatchId = some prior := by
  unfold staleSettlement at h
  split at h
  · cases h
  · rename_i latest hlatest
    rw [hlatest]
    have hfst : ∀ o : Option Settlement, (o.map fun x => (latest, x)) = some (prior, settlement) →
        latest = prior := by
      intro o ho
      obtain ⟨x, -, hx⟩ := Option.map_eq_some_iff.mp ho
      exact congrArg Prod.fst hx
    simp only at h
    split at h
    · cases h
    · split at h
      · cases h
      · split at h
        · cases h
        · split at h
          · exact congrArg some (hfst (some .timeout) h)
          · split at h
            · split at h
              · cases h
              · split at h
                · exact congrArg some (hfst (some .failed) h)
                · cases h
            · cases h

theorem safe_settleStalePriorWait {rest : Option Refusal → MailProgram}
    (hrest : ∀ s', LaterMailbox s s' → ∀ refusal, SafeMail writes (rest refusal) s') :
    SafeMail writes (settleStalePriorWait writes dispatchId rest) s := by
  refine safe_look fun s' hlater hs w => ?_
  split
  · exact hrest s' hlater _
  · split
    · exact hrest s' hlater _
    · split
      · exact hrest s' hlater _
      · rename_i prior settlement hstale
        obtain ⟨hmem, harm, -⟩ := latestWorkerWaitArm_eq_some hs.rows.rising
          (latest_of_staleSettlement hstale)
        refine safe_appendWorkerWaitEnded ⟨hmem, harm⟩ settlement
          (fun s'' hlater' _ => hrest s'' (hlater.trans hlater') _) fun s'' hlater' refusal => ?_
        cases refusal <;> exact hrest s'' (hlater.trans hlater') _

theorem safe_appendWorkerWaitStarted {deadline : ℤ} {consumed : List (String × ℕ)}
    (hconsumed : ∀ c ∈ consumed, c ∈ s.receipts)
    (hok : ∀ s', LaterMailbox s s' → ∀ arm ∈ s'.rows, arm.IsArm → SafeMail writes (rest (.ok arm)) s')
    (herror : ∀ s', LaterMailbox s s' → ∀ refusal, SafeMail writes (rest (.error refusal)) s') :
    SafeMail writes (appendWorkerWaitStarted writes request deadline consumed rest) s := by
  refine safe_look fun s₁ h₁ _ begun => ?_
  split
  · exact herror s₁ h₁ _
  · refine safe_settleStalePriorWait fun s₂ h₂ refusal => ?_
    cases refusal with
    | some refusal => exact herror s₂ (h₁.trans h₂) _
    | none =>
      refine safe_append (fun s₃ h₃ hs w => keeps_validateStarted hs.rows fun c hc => ?_)
        (fun s₃ h₃ => hok s₃ ((h₁.trans h₂).trans h₃))
        fun s₃ h₃ => herror s₃ ((h₁.trans h₂).trans h₃)
      exact h₃.receipts c (h₂.receipts c (h₁.receipts c (hconsumed c hc)))

theorem safe_deadlineResult (harm : arm ∈ s.rows ∧ arm.IsArm) :
    SafeMail writes (deadlineResult writes [] arm) s := by
  have hdone : ∀ s', LaterMailbox s s' → ∀ result,
      SafeMail writes (report [] result .done) s' :=
    fun s' _ result => safe_report right_nil fun _ _ => trivial
  refine safe_appendWorkerWaitEnded harm .timeout (fun s' hlater _ => hdone s' hlater _)
    fun s' hlater refusal => ?_
  cases refusal with
  | alreadySettled => exact hdone s' hlater _
  | timeout => exact hdone s' hlater _
  | replyPending arm' reply =>
    exact safe_deliverReply fun r' hr' => absurd hr' List.not_mem_nil
  | _ => trivial

theorem safe_pollReplies {deadline : ℤ} (harm : arm ∈ s.rows ∧ arm.IsArm) (polls : ℕ) :
    SafeMail writes (pollReplies writes request deadline [] arm polls) s := by
  induction polls generalizing s with
  | zero => exact safe_deadlineResult harm
  | succ polls ih =>
    refine safe_look fun s' hlater _ w => ?_
    have harm' := And.intro (hlater.mem harm.1) harm.2
    split
    · exact safe_deadlineResult harm'
    · split
      · exact ih harm'
      · split
        · exact ih harm'
        · exact safe_deliverReply fun r' hr' => absurd hr' List.not_mem_nil
        · trivial

theorem safe_armWait {deadline : ℤ} {polls : ℕ} {consumed : List (String × ℕ)}
    (hconsumed : ∀ c ∈ consumed, c ∈ s.receipts) :
    SafeMail writes (armWait writes request deadline polls consumed []) s := by
  refine safe_appendWorkerWaitStarted hconsumed (fun s' _ arm hmem harm => ?_)
    fun s' _ refusal => ?_
  · refine safe_note fun s'' hlater hs w => ⟨.refl s'', hs, ?_⟩
    have harm' := And.intro (hlater.mem hmem) harm
    split
    · exact safe_report right_nil fun s₃ h₃ =>
        safe_pollReplies ⟨h₃.mem harm'.1, harm⟩ polls
    · exact safe_appendWorkerWaitEnded harm' _ (fun _ _ _ => trivial) fun _ _ _ => trivial
  · cases refusal with
    | replyPending arm' reply =>
      exact safe_deliverReply fun r' hr' => absurd hr' List.not_mem_nil
    | timeout => exact safe_report right_nil fun _ _ => trivial
    | _ => trivial

theorem safe_waitForWorkerEntries (polls : ℕ) :
    SafeMail writes (waitForWorkerEntries writes request polls) s := by
  refine safe_look fun s₁ _ _ w₁ => safe_look fun s₂ h₂ hs w₂ => ?_
  have hconsumed : ∀ c ∈ s₁.receipts.filter w₁.seen, c ∈ s₂.receipts :=
    fun c hc => h₂.receipts c (List.mem_filter.mp hc).1
  have hrecovered : ∀ r ∈ s₂.owed request.dispatchId, ∃ a,
      recoverableWorkerWaitReply s₂.rows request.dispatchId (s₁.receipts.filter w₁.seen) =
        some (a, r) := by
    intro r hr
    obtain ⟨hadmitted, hprop⟩ := List.mem_filter.mp hr
    obtain ⟨hdispatch, howed⟩ := of_decide_eq_true hprop
    obtain ⟨hmem, hreply⟩ := hs.admitted r hadmitted
    obtain ⟨a, hlatest, hto⟩ := hs.rows.latest_of_owed hmem hreply hdispatch howed
    exact ⟨a, (hs.rows.recoverable_eq_some hlatest hmem hreply hto howed hconsumed).2⟩
  simp only
  split
  · exact safe_report (fun _ _ => .inr rfl) fun _ _ => trivial
  · split
    · trivial
    · split
      · rename_i arm reply hfound
        refine safe_deliverReply fun r' hr' => ?_
        obtain ⟨a, ha⟩ := hrecovered r' hr'
        exact (Prod.mk.inj (Option.some.inj (ha.symm.trans hfound))).2
      · rename_i hnone
        have hnothing : s₂.owed request.dispatchId = [] :=
          List.eq_nil_iff_forall_not_mem.mpr fun r' hr' => by
            obtain ⟨a, ha⟩ := hrecovered r' hr'
            cases ha.symm.trans hnone
        rw [hnothing]
        split
        · exact safe_armWait hconsumed
        · refine safe_report right_nil fun s₃ h₃ => ?_
          split
          · trivial
          · exact safe_armWait fun c hc => h₃.receipts c (hconsumed c hc)

/-- **Every call is safe.** -/
theorem safe_mailCall (c : MailCall) : SafeMail writes (c.program writes) s := by
  cases c with
  | wait request polls => exact safe_waitForWorkerEntries polls
  | reply => exact safe_appendWorkerWaitReply ..
  | messageView => exact safe_appendMessageView ..
  | steer =>
    show SafeMail writes (appendSteerEntry writes _ fun _ => .done) s
    exact safe_append (fun _ _ _ _ => keeps_validatePlain ..) (fun _ _ _ _ _ => trivial)
      fun _ _ _ => trivial
  | cleanup operation dispatchId waitId armSeq =>
    exact safe_runWorkerWaitCleanup operation waitId armSeq
  | printReceipt waitId replySeq =>
    refine safe_note fun s' _ hs w => ?_
    have hreceipts : ∀ c ∈ s'.receipts, c ∈ (waitId, replySeq) :: s'.receipts :=
      fun c hc => List.mem_cons_of_mem _ hc
    exact ⟨⟨List.prefix_rfl, hreceipts⟩,
      ⟨hs.rows.mono_receipts hreceipts, hs.admitted, hs.waits, hs.whole⟩, trivial⟩
  | garble =>
    intro s' _ hs hguard w
    have htorn : s'.torn = false := hguard ⟨{ w with busy := false, unreadable := false }, _, rfl⟩
    have hrows : (s'.append .whole none).rows = s'.rows := by
      rw [rows_append htorn]
      exact List.append_nil _
    refine ⟨⟨hrows ▸ List.prefix_rfl, fun _ h => h⟩,
      ⟨?_, fun r hr => ?_, hs.waits, fun _ => rfl⟩, trivial⟩
    · show SoundRows (s'.append .whole none).rows s'.receipts
      rw [hrows]
      exact hs.rows
    · show r ∈ (s'.append .whole none).rows ∧ r.IsReply
      rw [hrows]
      exact hs.admitted r hr

theorem sound_empty : SoundMailbox writes .empty where
  rows :=
    { rising := List.Pairwise.nil
      directed := fun _ h => absurd h List.not_mem_nil
      addressed := fun _ h => absurd h List.not_mem_nil
      named := fun _ h => absurd h List.not_mem_nil
      arms := fun _ h => absurd h List.not_mem_nil
      answers := fun _ h => absurd h List.not_mem_nil
      replies := fun _ h => absurd h List.not_mem_nil
      ends := fun _ h => absurd h List.not_mem_nil
      settlements := fun _ h => absurd h List.not_mem_nil
      exclusive := fun _ h => absurd h List.not_mem_nil
      settledBy := fun _ h => absurd h List.not_mem_nil
      older := fun _ h => absurd h List.not_mem_nil }
  admitted _ h := absurd h List.not_mem_nil
  waits _ h := absurd h List.not_mem_nil
  whole _ := rfl

/-! ### One question, one outcome -/

theorem run_sound (actions : List MailAction) :
    SoundMailbox (fun _ => .whole)
      (MailState.run (fun _ => .whole) (idle .empty) actions).shared := by
  refine AllSafe.run_of_granted LaterMailbox.refl LaterMailbox.trans (fun label s hs => ?_)
    (fun c s _ => safe_mailCall c) sound_empty actions
  cases label with
  | free => trivial
  | append prepare => exact fun _ => hs.whole fun _ => rfl

/-- **One question has one outcome.**  In every mailbox that the processes lead to the numbers of
the rows rise, and a wait has at most one arm, one typed reply and one settlement; a settlement
by timeout or failure is never there with a reply, and a settlement by reply names the one reply
of its wait. -/
theorem one_outcome (actions : List MailAction) :
    let rows := (MailState.run (fun _ => .whole) (idle .empty) actions).shared.rows
    (rows.Pairwise fun e e' => e.seq < e'.seq) ∧
    (∀ a ∈ rows, ∀ b ∈ rows, a.IsArm → b.IsArm → a.questionId = b.questionId → a = b) ∧
    (∀ r ∈ rows, ∀ r' ∈ rows, r.IsReply → r'.IsReply → r.replyTo = r'.replyTo → r = r') ∧
    (∀ e ∈ rows, ∀ e' ∈ rows, e.IsEnd → e'.IsEnd → e.replyTo = e'.replyTo → e = e') ∧
    (∀ e ∈ rows, ∀ r ∈ rows, e.IsEnd → r.IsReply → e.replyTo = r.replyTo →
      e.decision = some "reply") ∧
    ∀ e ∈ rows, e.IsEnd → e.decision = some "reply" →
      ∃ r ∈ rows, r.IsReply ∧ r.replyTo = e.replyTo ∧ e.context.replySeq = some r.seq := by
  intro rows
  have hs := (run_sound actions).rows
  exact ⟨hs.rising, hs.arms, hs.replies, hs.settlements, hs.exclusive, hs.settledBy⟩

/-! ### An admitted reply is not lost -/

/-- **An admitted reply is redelivered**, in every run in which nothing is appended to a mailbox
whose last line was cut.  As long as it is not known to have reached the worker it is there and
is what the next wait recovers, no wait of its dispatch is armed, and a wait that read the mailbox
while it was owed has reported it, unless it was not let read. -/
theorem reply_redelivered (writes : MailAnswer → Written) {before after : List MailAction}
    (hmeets : Machine.Meets (step (MailCall.program writes))
      (Condition (fun _ => True) Unbroken) (idle .empty) (before ++ after)) :
    let s₁ := (MailState.run writes (idle .empty) before).shared
    let s₂ := (MailState.run writes (idle .empty) (before ++ after)).shared
    ∀ r ∈ s₁.admitted, ¬ Consumed s₂.rows s₂.receipts r →
      (∃ dispatchId a, r.dispatchId = some dispatchId ∧
        ∀ consumed, (∀ c ∈ consumed, c ∈ s₂.receipts) →
          recoverableWorkerWaitReply s₂.rows dispatchId consumed = some (a, r)) ∧
      (∀ b ∈ s₂.rows, b.IsArm → b.dispatchId = r.dispatchId → b ∈ s₁.rows) ∧
      ∀ rep ∈ s₂.waits, r ∈ rep.owed → rep.result = .reply r ∨ rep.result = .deadline := by
  intro s₁ s₂ r hr howed
  obtain ⟨hbefore, hafter⟩ := (Machine.meets_append _).mp hmeets
  have hstart : AllSafe LaterMailbox (SoundMailbox writes) Unbroken (idle .empty : MailState) :=
    allSafe_idle sound_empty
  obtain ⟨hmiddle, -⟩ := hstart.run LaterMailbox.refl LaterMailbox.trans
    (fun c _ _ _ => safe_mailCall c) hbefore
  obtain ⟨hend, hlater⟩ := hmiddle.run LaterMailbox.refl LaterMailbox.trans
    (fun c _ _ _ => safe_mailCall c) hafter
  have hs₁ : SoundMailbox writes s₁ := hmiddle.inv
  have hrun : s₂ = (MailState.run writes (MailState.run writes (idle .empty) before) after).shared :=
    congrArg Threads.State.shared (Machine.run_append _ _ _ _)
  have hs₂ : SoundMailbox writes s₂ := hrun ▸ hend.inv
  have h₁₂ : LaterMailbox s₁ s₂ := hrun ▸ hlater
  obtain ⟨hmem, hreply⟩ := hs₁.admitted r hr
  obtain ⟨a, ha, harm, -, hquestion, -, hsome, -⟩ := hs₁.rows.answers r hmem hreply
  obtain ⟨dispatchId, hdispatch⟩ := Option.ne_none_iff_exists'.mp hsome
  obtain ⟨b, hlatest, hto⟩ := hs₂.rows.latest_of_owed (h₁₂.mem hmem) hreply hdispatch howed
  obtain ⟨hb, hbarm, -, hlast⟩ := latestWorkerWaitArm_eq_some hs₂.rows.rising hlatest
  -- The latest wait is the one that the reply was admitted to.
  obtain rfl := hs₂.rows.arms a (h₁₂.mem ha) b hb harm hbarm (hquestion.trans hto)
  refine ⟨⟨dispatchId, a, hdispatch, fun consumed hconsumed =>
    (hs₂.rows.recoverable_eq_some hlatest (h₁₂.mem hmem) hreply hto howed hconsumed).2⟩,
    fun c hc hcarm hsame => ?_, fun rep hrep howed' => hs₂.waits rep hrep r howed'⟩
  have hle := hlast c hc hcarm (hsame.trans hdispatch)
  obtain ⟨added, hadded⟩ := h₁₂.rows
  have hrising := hs₂.rows.rising
  rw [← hadded] at hc hrising
  rcases List.mem_append.mp hc with hold | hnew
  · exact hold
  · exact absurd ((List.pairwise_append.mp hrising).2.2 a ha c hnew) hle.not_gt

/-- A world in which nothing goes wrong. -/
def quietAnswer (now : ℤ) (uuid : String) (written : Written) : MailAnswer where
  busy := false
  unreadable := false
  now
  pid := 7
  startToken := some "t"
  identityMatches _ _ := some true
  uuid
  seen _ := true
  acked _ := false
  published := true
  printed := true
  tailed := false
  written

/-- A need of a dispatch. -/
def someNeed : WaitRequest := ⟨"d", "USER-NEED", "which branch", 100⟩

/-- Turns of a process in a world in which nothing goes wrong. -/
def turns (p : ℕ) (now : ℤ) (uuid : String) (n : ℕ) : List MailAction :=
  List.replicate n (.turn p (quietAnswer now uuid .whole))

/-- A wait is armed and answered. -/
def answeredWait : List MailAction :=
  .call 0 (.wait someNeed 0) :: turns 0 10 "w" 5 ++
    .call 1 (.reply "d" "w" "main" none none) :: turns 1 20 "" 2

/-- The next wait delivers the answer. -/
def deliveringWait : List MailAction := .call 2 (.wait someNeed 0) :: turns 2 200 "v" 3

/-- A reply that is recovered after its deadline. -/
theorem reply_redelivered_once :
    let s₁ := (MailState.run (fun w => w.written) (idle .empty) answeredWait).shared
    let s₂ := (MailState.run (fun w => w.written) (idle .empty)
      (answeredWait ++ deliveringWait)).shared
    ∀ r ∈ s₁.admitted, ¬ Consumed s₂.rows s₂.receipts r →
      (∃ dispatchId a, r.dispatchId = some dispatchId ∧
        ∀ consumed, (∀ c ∈ consumed, c ∈ s₂.receipts) →
          recoverableWorkerWaitReply s₂.rows dispatchId consumed = some (a, r)) ∧
      (∀ b ∈ s₂.rows, b.IsArm → b.dispatchId = r.dispatchId → b ∈ s₁.rows) ∧
      ∀ rep ∈ s₂.waits, r ∈ rep.owed → rep.result = .reply r ∨ rep.result = .deadline := by
  exact reply_redelivered (fun w => w.written)
    ⟨trivial, trivial, trivial, trivial, trivial, fun _ => rfl, trivial, fun _ => rfl, trivial,
      trivial, trivial, trivial, trivial, trivial⟩

/-- A helper that is to settle the wait as timed out ends while it writes; the reply is written
behind what it leaves, and the next wait finds none. -/
def cutBehind : List MailAction :=
  .call 0 (.wait someNeed 0) :: turns 0 10 "w" 5 ++
    [.call 1 (.cleanup .timeout "d" "w" 1), .turn 1 (quietAnswer 120 "" .whole),
      .turn 1 (quietAnswer 120 "" .part), .call 2 (.reply "d" "w" "main" none none)] ++
    turns 2 130 "" 2

/-- The next wait, in which the wait that was answered is settled as timed out. -/
def rearmingWait : List MailAction := .call 3 (.wait someNeed 0) :: turns 3 200 "v" 6

/-- **A reply is admitted, and lost**: the row that was returned is not there, and a new wait is
armed. -/
theorem reply_lost_behind_cut :
    let s₁ := (MailState.run (fun w => w.written) (idle .empty) cutBehind).shared
    let s₂ := (MailState.run (fun w => w.written) (idle .empty) (cutBehind ++ rearmingWait)).shared
    ∃ r ∈ s₁.admitted, ¬ Consumed s₂.rows s₂.receipts r ∧ r ∉ s₂.rows ∧
      ∃ b ∈ s₂.rows, b.IsArm ∧ b.dispatchId = r.dispatchId ∧ b ∉ s₁.rows := by
  decide +kernel

end GoalFlight.Mailbox
