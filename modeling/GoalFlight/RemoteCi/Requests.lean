import GoalFlight.RemoteCi.Outcomes

/-!
# Remote CI: an accepted start ends in one outcome

The requests on a lease exclude each other by `command.lock`; the holder steps in between.  In every
run that heeds what may be lost, a command that was accepted is launched at most once, its lease is
released only with a result, the result agrees with what was found and never changes, and no release
drops it (`accepted_start`).
-/

namespace GoalFlight.RemoteCi

/-! ### Places of requests -/

/-- The places under `command.lock`. -/
def RequestAt.inside : RequestAt → Bool
  | .idle => false
  | .lock _ => false
  | .answered _ => false
  | _ => true

/-- What a request has found under the lock. -/
def Found (run : Run) : RequestAt → Prop
  | .startHolder => run.token = true
  | .startPending => run.token = true
  | .startCommand => run.token = true ∧ run.release = false
  | .startWrite => run.token = true ∧ run.release = false ∧ run.command = false
  | .releaseWrite => run.command = false
  | .cancelHolder expected => run.owner = expected
  | .cancelWrite expected => run.owner = expected
  | .cancelCommand expected => run.owner = expected
  | .cancelRelease expected => run.owner = expected ∧ run.command = false
  | .finishDrain expected deadline =>
    run.owner = expected ∧ run.holder = .gone ∧ (deadline = true → run.late = true)
  | .finishClear expected deadline =>
    run.owner = expected ∧ run.holder = .gone ∧ (deadline = true → run.late = true)
  | .finishRelease expected deadline _ =>
    run.owner = expected ∧ run.holder = .gone ∧ (deadline = true → run.late = true)
  | _ => True

/-- **What holds at each place of a request.** -/
structure RequestOk (run : Run) (p : ℕ) (place : RequestAt) : Prop where
  locked : place.inside = true → run.commandLock = some p
  found : place.inside = true → Found run place

/-- A run whose lease is released only once its holder is gone. -/
structure SoundLease (run : Run) : Prop where
  sound : SoundRun run
  isOver : run.status = .released → run.holder = .gone

theorem soundLease_start (owner : ℕ) : SoundLease (Run.start owner) where
  sound := ⟨nofun, nofun, nofun, nofun, fun _ => rfl, nofun, nofun, Nat.zero_le 1, fun _ => rfl,
    fun _ _ => rfl, nofun, nofun, nofun, nofun⟩
  isOver := nofun

section Places

variable {run run' : Run} {p q : ℕ} {place : RequestAt} {a : HolderAnswer}

theorem requestOk_outside (h : place.inside = false) : RequestOk run p place where
  locked hinside := by
    rw [h] at hinside
    cases hinside
  found hinside := by
    rw [h] at hinside
    cases hinside

/-- **The holder leaves what a request relies on.** -/
theorem RequestOk.holder (h : RequestOk run q place) : RequestOk (holderStep a run) q place where
  locked hinside := by
    rw [(holderStep_leaves run a).commandLock]
    exact h.locked hinside
  found hinside := by
    have hleaves := holderStep_leaves run a
    have hfound := h.found hinside
    have hgone : run.holder = .gone → holderStep a run = run := holderStep_gone
    cases place with
    | startHolder => exact hleaves.token hfound
    | startPending => exact hleaves.token hfound
    | startCommand => exact ⟨hleaves.token hfound.1, hleaves.release.trans hfound.2⟩
    | startWrite =>
      exact ⟨hleaves.token hfound.1, hleaves.release.trans hfound.2.1,
        hleaves.command.trans hfound.2.2⟩
    | releaseWrite => exact hleaves.command.trans hfound
    | cancelHolder expected => exact hleaves.owner.trans hfound
    | cancelWrite expected => exact hleaves.owner.trans hfound
    | cancelCommand expected => exact hleaves.owner.trans hfound
    | cancelRelease expected =>
      exact ⟨hleaves.owner.trans hfound.1, hleaves.command.trans hfound.2⟩
    | finishDrain expected deadline =>
      rw [hgone hfound.2.1]
      exact hfound
    | finishClear expected deadline =>
      rw [hgone hfound.2.1]
      exact hfound
    | finishRelease expected deadline cleared =>
      rw [hgone hfound.2.1]
      exact hfound
    | _ => trivial

theorem requestTurn_outside {a : RequestAnswer} (hout : place.inside = false)
    (hlock : run.commandLock = some q) : (requestTurn a p run place).1 = run := by
  cases place with
  | idle => rfl
  | answered success => rfl
  | lock request =>
    unfold requestTurn
    dsimp only
    rw [if_neg (by rw [hlock]; exact nofun)]
  | _ => cases hout

/-- **The other requests leave what a request relies on.** -/
theorem RequestOk.other {a : RequestAnswer} {place' : RequestAt} (hq : q ≠ p)
    (h : RequestOk run q place') (hp : RequestOk run p place) :
    RequestOk (requestTurn a p run place).1 q place' := by
  cases hinside : place'.inside with
  | false => exact requestOk_outside hinside
  | true =>
    have hlock := h.locked hinside
    cases hmine : place.inside with
    | false =>
      rw [requestTurn_outside hmine hlock]
      exact h
    | true =>
      have hlock' := hp.locked hmine
      rw [hlock] at hlock'
      exact absurd (Option.some.inj hlock') hq

end Places

/-! ### Turns of requests -/

/-- **What a turn of a request has to heed**: a command is accepted while the holder waits for it, or
after an exception of the holder. -/
def requestHeeds (run : Run) : RequestAt → Bool
  | .startWrite => run.holder.waits || run.holder = .failed || run.result.isSome
  | _ => true

/-- A turn keeps what holds of the run, and leads to a place where what is relied on holds. -/
structure Serves (run : Run) (p : ℕ) (next : Run × RequestAt) : Prop where
  sound : SoundLease next.1
  own : RequestOk next.1 p next.2
  result : ∀ outcome, run.result = some outcome → next.1.result = some outcome

section Turns

variable {run run' : Run} {p : ℕ} {place : RequestAt} {a : RequestAnswer}

theorem SoundLease.mark (h : SoundLease run) (hlater : Later run run')
    (hcommand : run'.command = run.command) (hrelease : run'.release = run.release)
    (hresult : run'.result = run.result) (hpending : run'.pending = run.pending)
    (hholder : run'.holder = run.holder) (hlaunches : run'.launches = run.launches)
    (hstatus : run'.status = run.status ∨ run'.status = .draining)
    (htoken : run'.token = run.token) (hexit : run.launches = 0 → run'.exit = none) :
    SoundLease run' where
  sound := by
    refine h.sound.mark hlater hcommand hrelease hresult hpending hholder hlaunches ?_ ?_ hexit
    · intro hs
      rcases hstatus with heq | heq
      · exact heq.symm.trans hs
      · rw [heq] at hs
        cases hs
    · intro hs
      rw [htoken]
      rcases hstatus with heq | heq
      · exact h.sound.admitted (heq.symm.trans hs)
      · rw [heq] at hs
        cases hs
  isOver hs := by
    rw [hholder]
    rcases hstatus with heq | heq
    · exact h.isOver (heq.symm.trans hs)
    · rw [heq] at hs
      cases hs

theorem Serves.stay (h : SoundLease run) (hown : RequestOk run p place) :
    Serves run p (run, place) := ⟨h, hown, fun _ => id⟩

/-- **The request is answered.** -/
theorem Serves.answer {success : Bool} (h : SoundLease run')
    (hresult : ∀ outcome, run.result = some outcome → run'.result = some outcome) :
    Serves run p (run'.answer success) where
  sound := h.mark ⟨id, id, id, id, id, fun _ => id⟩ rfl rfl rfl rfl rfl rfl (.inl rfl) rfl
    h.sound.unexited
  own := requestOk_outside rfl
  result := hresult

theorem RequestOk.on (h : RequestOk run p place) (hinside : place.inside = true)
    {place' : RequestAt} (hlock : run'.commandLock = run.commandLock)
    (hfound : Found run' place') : RequestOk run' p place' where
  locked _ := by
    rw [hlock]
    exact h.locked hinside
  found _ := hfound

/-- **A command is accepted.** -/
theorem SoundLease.accept (h : SoundLease run) (hfound : Found run .startWrite)
    (hheeds : requestHeeds run .startWrite = true) : SoundLease { run with command := true } := by
  obtain ⟨htoken, hrelease, _⟩ := hfound
  have hs := h.sound
  have hcases : run.holder.waits = true ∨ run.holder = .failed ∨ run.result.isSome := by
    simpa [requestHeeds, or_assoc] using hheeds
  have hplace : run.result.isSome → run.holder = .clearAgain ∨ run.holder.releasing = true := by
    intro hsome
    by_contra hno
    rw [not_or, Bool.not_eq_true] at hno
    rw [hs.unwritten hno.2 hno.1] at hsome
    cases hsome
  refine ⟨⟨fun _ => ?_, fun hreleased _ => ?_, fun _ => hrelease, fun _ => rfl, hs.unlaunched,
    fun _ => htoken, hs.admitted, hs.once, hs.unexited, hs.unwritten, hs.seen, hs.gone,
    fun o ho => (hs.result o ho).later ⟨id, id, id, id, id, fun _ => id⟩,
    fun o ho => (hs.pending o ho).later ⟨id, id, id, id, id, fun _ => id⟩⟩, h.isOver⟩
  · show Due { run with command := true } run.holder
    rcases hcases with hwaits | hfailed | hsome
    · cases hholder : run.holder <;> rw [hholder] at hwaits <;> trivial
    · rw [hfailed]
      trivial
    · exact due_of_result hsome (hplace hsome)
  · have hgone := h.isOver hreleased
    rcases hcases with hwaits | hfailed | hsome
    · rw [hgone] at hwaits
      cases hwaits
    · rw [hgone] at hfailed
      cases hfailed
    · exact hsome

/-- **A release is asked for** while there is no command. -/
theorem SoundLease.ask (h : SoundLease run) (hcommand : run.command = false) :
    SoundLease { run with release := true } := by
  have hs := h.sound
  refine ⟨⟨hs.due, hs.released, fun hc => ?_, hs.commanded, hs.unlaunched, hs.tokened, hs.admitted,
    hs.once, hs.unexited, hs.unwritten, hs.seen, hs.gone,
    fun o ho => (hs.result o ho).later ⟨id, id, id, id, id, fun _ => id⟩,
    fun o ho => (hs.pending o ho).later ⟨id, id, id, id, id, fun _ => id⟩⟩, h.isOver⟩
  rw [show run.command = true from hc] at hcommand
  cases hcommand

/-- **`finish_dead_workload` releases the lease** with the outcome that is settled. -/
theorem SoundLease.finishDead {deadline : Bool} (h : SoundLease run) (hgone : run.holder = .gone)
    (hlate : deadline = true → run.late = true) : SoundLease (run.finishDead deadline) := by
  have hpend : ∃ run₁ : Run, (if deadline && run.result.isNone && run.pending.isNone then
      run.pend .deadline else run) = run₁ ∧ SoundRun run₁ ∧ run₁.holder = .gone := by
    refine ⟨_, rfl, ?_⟩
    split
    · rename_i hcond
      rw [Bool.and_eq_true, Bool.and_eq_true] at hcond
      exact ⟨h.sound.pend _ (hlate hcond.1.1), hgone⟩
    · exact ⟨h.sound, hgone⟩
  obtain ⟨run₁, heq, hsound, hgone₁⟩ := hpend
  have hsettled : run₁.command = true → Settled run₁ := fun hc => by
    have hdue := hsound.due hc
    rw [hgone₁] at hdue
    exact hdue
  have hpublished : SoundRun run₁.publishPending ∧ run₁.publishPending.holder = .gone ∧
      run₁.publishPending.command = run₁.command := by
    rcases publishPending_cases run₁ with hsame | ⟨outcome, hnone, hput, hfrom⟩
    · rw [hsame]
      exact ⟨hsound, hgone₁, rfl⟩
    · have hwrite : SoundRun { run₁ with result := some outcome, holder := .gone } :=
        hsound.write (agrees_of_publish hsound hsettled hnone hfrom) (.inr rfl)
      rw [hput]
      rw [← hgone₁] at hwrite
      exact ⟨hwrite, hgone₁, rfl⟩
  obtain ⟨hs, hholder, hcommand⟩ := hpublished
  unfold Run.finishDead
  dsimp only
  rw [heq]
  refine ⟨⟨hs.due, fun _ hc => ?_, hs.exclusive, hs.commanded, hs.unlaunched, hs.tokened, nofun,
    hs.once, hs.unexited, hs.unwritten, hs.seen, hs.gone,
    fun o ho => (hs.result o ho).later ⟨id, id, id, id, id, fun _ => id⟩,
    fun o ho => (hs.pending o ho).later ⟨id, id, id, id, id, fun _ => id⟩⟩, fun _ => hholder⟩
  exact result_of_settled (hsettled (hcommand.symm.trans hc))

theorem finishDead_result {deadline : Bool} {outcome : Outcome}
    (ho : run.result = some outcome) : (run.finishDead deadline).result = some outcome := by
  unfold Run.finishDead
  dsimp only
  rw [if_neg (by rw [ho]; simp)]
  unfold Run.publishPending
  rw [ho]
  exact ho

/-- **A turn of a request** keeps what holds of the run. -/
theorem requestTurn_serves (h : SoundLease run) (hat : RequestOk run p place)
    (hheeds : requestHeeds run place = true) : Serves run p (requestTurn a p run place) := by
  have hsame : ∀ outcome, run.result = some outcome → run.result = some outcome := fun _ => id
  have hanswer : ∀ success, Serves run p (run.answer success) := fun _ => Serves.answer h hsame
  have hfound := hat.found
  cases place with
  | idle => exact Serves.stay h hat
  | answered success => exact Serves.stay h hat
  | lock request =>
    unfold requestTurn
    dsimp only
    split
    · refine ⟨h.mark ⟨id, id, id, id, id, fun _ => id⟩ rfl rfl rfl rfl rfl rfl (.inl rfl) rfl
        h.sound.unexited, ⟨fun _ => rfl, fun _ => ?_⟩, hsame⟩
      cases request <;> trivial
    · exact Serves.stay h hat
  | startState =>
    unfold requestTurn
    dsimp only
    split
    · rename_i hadmitted
      exact Serves.stay h (hat.on rfl rfl (h.sound.admitted hadmitted))
    · exact hanswer false
  | startHolder =>
    unfold requestTurn
    dsimp only
    split
    · exact hanswer false
    · exact Serves.stay h (hat.on rfl rfl (hfound rfl))
  | startPending =>
    unfold requestTurn
    dsimp only
    split
    · exact hanswer false
    · rename_i hnone
      rw [Bool.or_eq_true, not_or, Bool.not_eq_true] at hnone
      exact Serves.stay h (hat.on rfl rfl ⟨hfound rfl, hnone.1⟩)
  | startCommand =>
    unfold requestTurn
    dsimp only
    split
    · exact hanswer false
    · rename_i hnone
      rw [Bool.not_eq_true] at hnone
      obtain ⟨htoken, hrelease⟩ := hfound rfl
      exact Serves.stay h (hat.on rfl rfl ⟨htoken, hrelease, hnone⟩)
  | startWrite => exact Serves.answer (h.accept (hfound rfl) hheeds) hsame
  | attachState owner =>
    unfold requestTurn
    dsimp only
    split
    · exact hanswer false
    · split
      · exact Serves.stay h (hat.on rfl rfl trivial)
      · exact Serves.stay h (hat.on rfl rfl trivial)
  | attachPending owner =>
    unfold requestTurn
    dsimp only
    split
    · exact hanswer false
    · exact Serves.stay h (hat.on rfl rfl trivial)
  | attachHolder owner =>
    unfold requestTurn
    dsimp only
    split
    · exact hanswer false
    · exact Serves.stay h (hat.on rfl rfl trivial)
  | attachWrite owner =>
    exact Serves.answer (h.mark ⟨id, id, id, id, id, fun _ => id⟩ rfl rfl rfl rfl rfl rfl
      (.inl rfl) rfl h.sound.unexited) hsame
  | releaseOwner expected =>
    unfold requestTurn
    dsimp only
    split
    · exact Serves.stay h (hat.on rfl rfl trivial)
    · exact hanswer false
  | releaseCommand =>
    unfold requestTurn
    dsimp only
    split
    · exact hanswer false
    · rename_i hnone
      rw [Bool.not_eq_true] at hnone
      exact Serves.stay h (hat.on rfl rfl hnone)
  | releaseWrite => exact Serves.answer (h.ask (hfound rfl)) hsame
  | cancelOwner expected =>
    unfold requestTurn
    dsimp only
    split
    · rename_i howner
      exact Serves.stay h (hat.on rfl rfl howner.symm)
    · exact hanswer false
  | cancelHolder expected =>
    have howner : run.owner = expected := hfound rfl
    unfold requestTurn
    dsimp only
    split
    · exact Serves.stay h (hat.on rfl rfl howner)
    · rename_i hgone
      rw [not_not] at hgone
      split
      · exact hanswer false
      · split
        · refine ⟨h.mark ⟨id, id, fun _ => rfl, id, id, fun _ => id⟩ rfl rfl rfl rfl rfl rfl
            (.inl rfl) rfl h.sound.unexited, hat.on rfl rfl ⟨howner, hgone, fun _ => rfl⟩, hsame⟩
        · split
          · exact Serves.stay h (hat.on rfl rfl ⟨howner, hgone, nofun⟩)
          · exact hanswer false
  | cancelWrite expected =>
    have howner : run.owner = expected := hfound rfl
    exact ⟨h.mark ⟨id, fun _ => rfl, id, id, id, fun _ => id⟩ rfl rfl rfl rfl rfl rfl (.inl rfl)
      rfl h.sound.unexited, hat.on rfl rfl howner, hsame⟩
  | cancelCommand expected =>
    unfold requestTurn
    dsimp only
    split
    · exact hanswer true
    · rename_i hnone
      rw [Bool.not_eq_true] at hnone
      exact Serves.stay h (hat.on rfl rfl ⟨hfound rfl, hnone⟩)
  | cancelRelease expected => exact Serves.answer (h.ask (hfound rfl).2) hsame
  | finishDrain expected deadline =>
    unfold requestTurn
    dsimp only
    split
    · exact hanswer false
    · exact ⟨h.mark ⟨id, id, id, id, id, fun _ => id⟩ rfl rfl rfl rfl rfl rfl (.inr rfl) rfl
        h.sound.unexited, hat.on rfl rfl (hfound rfl), hsame⟩
  | finishClear expected deadline =>
    have hcapture : SoundLease (run.capture a.code) := by
      have hlater := later_capture run a.code
      have hexit := (h.sound.capture a.code).unexited
      rw [capture_eq] at hlater hexit ⊢
      exact h.mark hlater rfl rfl rfl rfl rfl rfl (.inl rfl) rfl hexit
    unfold requestTurn
    dsimp only
    refine ⟨hcapture, ?_, ?_⟩
    · rw [capture_eq]
      exact hat.on rfl rfl (hfound rfl)
    · rw [capture_eq]
      exact hsame
  | finishRelease expected deadline cleared =>
    obtain ⟨_, hgone, hlate⟩ := hfound rfl
    unfold requestTurn
    dsimp only
    split
    · exact hanswer false
    · split
      · exact Serves.answer (h.finishDead hgone hlate) fun _ ho => finishDead_result ho
      · exact Serves.answer (h.mark ⟨id, id, id, id, id, fun _ => id⟩ rfl rfl rfl rfl rfl rfl
          (.inr rfl) rfl h.sound.unexited) hsame

end Turns

/-! ### Steps -/

/-- **What a step has to heed**, of the holder or of a request. -/
def leaseHeeds (s : LeaseState) : LeaseAction → Bool
  | .holder a => holderHeeds a s.shared
  | .call _ _ => true
  | .turn p _ => requestHeeds s.shared (s.place p)

/-- What holds between the steps. -/
abbrev SoundRequests : LeaseState → Prop := Threads.Holds SoundLease RequestOk

theorem soundRequests_start (owner : ℕ) : SoundRequests (LeaseState.start owner) :=
  ⟨soundLease_start owner, fun _ => requestOk_outside rfl⟩

/-- **A step** that heeds what may be lost. -/
theorem leaseStep_keeps {s : LeaseState} (action : LeaseAction) (h : SoundRequests s)
    (hheeds : leaseHeeds s action = true) :
    SoundRequests (leaseStep s action) ∧ ∀ outcome, s.shared.result = some outcome →
      (leaseStep s action).shared.result = some outcome := by
  cases action with
  | holder a =>
    refine ⟨h.environment ⟨holderStep_sound h.inv.sound hheeds, fun hs => ?_⟩
      fun q _ hat => hat.holder, fun o ho => holderStep_result h.inv.sound ho⟩
    rcases (holderStep_leaves s.shared a).released hs with hbefore | hgone
    · rw [holderStep_gone (h.inv.isOver hbefore)]
      exact h.inv.isOver hbefore
    · exact hgone
  | call p request =>
    unfold leaseStep
    dsimp only
    split
    · exact ⟨h.turn h.inv (requestOk_outside rfl) fun _ _ hat => hat, fun _ => id⟩
    · exact ⟨h, fun _ => id⟩
  | turn p a =>
    obtain ⟨hsound, hown, hresult⟩ := requestTurn_serves (a := a) h.inv (h.ok p) hheeds
    exact ⟨h.turn hsound hown fun q hq hat => hat.other hq (h.ok p), hresult⟩

/-! ### Every run -/

/-- **What is promised of each state**: a command is launched at most once, its lease is released
with a result, the result agrees with what was found, and no release is pending for it. -/
structure LeaseSafe (run : Run) : Prop where
  once : run.launches ≤ 1
  result : run.command = true → run.status = .released → run.result.isSome
  agrees : ∀ outcome, run.result = some outcome → Agrees run outcome
  kept : run.command = true → run.release = false

/-- The request is a cancellation that expects another owner. -/
def RequestAt.expects? : RequestAt → Option ℕ
  | .cancelOwner expected => some expected
  | .cancelHolder expected => some expected
  | .cancelWrite expected => some expected
  | .cancelCommand expected => some expected
  | .cancelRelease expected => some expected
  | .finishDrain expected _ => some expected
  | .finishClear expected _ => some expected
  | .finishRelease expected _ _ => some expected
  | _ => none

/-- What is in the run directory. -/
structure SameDirectory (run run' : Run) : Prop where
  status : run'.status = run.status
  pending : run'.pending = run.pending
  exit : run'.exit = run.exit
  owner : run'.owner = run.owner
  command : run'.command = run.command
  release : run'.release = run.release
  cancel : run'.cancel = run.cancel
  result : run'.result = run.result
  holder : run'.holder = run.holder

/-- **What is promised of each step**: a result that is written stays, and a cancellation that
expects another owner than the current one changes nothing. -/
structure LeaseStepSafe (s : LeaseState) (action : LeaseAction) : Prop where
  result : ∀ outcome, s.shared.result = some outcome →
    (leaseStep s action).shared.result = some outcome
  owned : ∀ p a expected, action = .turn p a → (s.place p).expects? = some expected →
    expected ≠ s.shared.owner → SameDirectory s.shared (leaseStep s action).shared ∧
      (leaseStep s action).place p = .answered false

theorem owner_of_expects {run : Run} {p expected : ℕ} {place : RequestAt}
    (hat : RequestOk run p place) (hexpects : place.expects? = some expected) :
    place = .cancelOwner expected ∨ run.owner = expected := by
  have hfound := hat.found
  cases place with
  | cancelOwner e =>
    cases hexpects
    exact .inl rfl
  | cancelHolder e =>
    cases hexpects
    exact .inr (hfound rfl)
  | cancelWrite e =>
    cases hexpects
    exact .inr (hfound rfl)
  | cancelCommand e =>
    cases hexpects
    exact .inr (hfound rfl)
  | cancelRelease e =>
    cases hexpects
    exact .inr (hfound rfl).1
  | finishDrain e deadline =>
    cases hexpects
    exact .inr (hfound rfl).1
  | finishClear e deadline =>
    cases hexpects
    exact .inr (hfound rfl).1
  | finishRelease e deadline cleared =>
    cases hexpects
    exact .inr (hfound rfl).1
  | _ => cases hexpects

theorem leaseStepSafe {s : LeaseState} (action : LeaseAction) (h : SoundRequests s)
    (hheeds : leaseHeeds s action = true) : LeaseStepSafe s action where
  result := (leaseStep_keeps action h hheeds).2
  owned p a expected haction hexpects hne := by
    subst haction
    rcases owner_of_expects (h.ok p) hexpects with hplace | howner
    · have hturn : leaseStep s (.turn p a) = s.turn p (s.shared.answer false) := by
        show s.turn p (requestTurn a p s.shared (s.place p)) = _
        rw [hplace]
        unfold requestTurn
        dsimp only
        rw [if_neg hne]
      rw [hturn]
      exact ⟨⟨rfl, rfl, rfl, rfl, rfl, rfl, rfl, rfl, rfl⟩, s.turn_place_self p _⟩
    · exact absurd howner.symm hne

/-- A step of the holder that succeeds. -/
def succeeds : HolderAnswer := ⟨false, true, false, true, .launched, some false, some 0⟩

/-- The holder takes steps that succeed. -/
def holderSteps (n : ℕ) : List LeaseAction := List.replicate n (.holder succeeds)

/-- A request is made, and takes its turns. -/
def requestSteps (p : ℕ) (request : Request) (n : ℕ) : List LeaseAction :=
  .call p request :: List.replicate n (.turn p ⟨true, false, none⟩)

/-- A command is accepted, launched, and exits with success. -/
def completedRun : List LeaseAction :=
  holderSteps 2 ++ requestSteps 0 .start 6 ++ holderSteps 17

/-- The slot of an accepted command can not be prepared. -/
def unpreparedRun : List LeaseAction :=
  holderSteps 2 ++ requestSteps 0 .start 6 ++ holderSteps 1 ++
    [.holder { succeeds with ok := false }] ++ holderSteps 4

/-- The holder's wait is over after `start` has looked at the lease, and before it has written the
command. -/
def overtakenRun : List LeaseAction :=
  holderSteps 4 ++ requestSteps 0 .start 5 ++ [.holder { succeeds with late := true }] ++
    [.turn 0 ⟨true, false, none⟩] ++ holderSteps 4

/-- The command has exited, its result is written, and the holder raises. -/
def overwrittenRun : List LeaseAction :=
  holderSteps 2 ++ requestSteps 0 .start 6 ++ holderSteps 12 ++
    [.holder { succeeds with raised := true }] ++ holderSteps 1

end GoalFlight.RemoteCi
