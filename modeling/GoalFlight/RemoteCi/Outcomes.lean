import GoalFlight.RemoteCi.Holder

/-!
# Remote CI: what the holder keeps

The outcome of an accepted command is on its way at every place of the holder: it is still to be
written, or it is pending in the lease, or it is written.  The holder loses it where it leaves
without it: the command window is over while a command was just accepted, the slot can not be
prepared, or the tree of a lost launch is not proven dead.  An exception after the result overwrites
it.
-/

namespace GoalFlight.RemoteCi

/-! ### What holds of a run -/

/-- **An outcome agrees with what was found**: the exit code, the cancellation or the deadline.  A
workload that completed was seen. -/
def Agrees (run : Run) : Outcome → Prop
  | .exited (some code) => run.exit = some code ∧ (code = 0 → run.seen = true)
  | .exited none => run.leaderGone = true
  | .cancelled => run.cancel = true
  | .deadline => run.late = true
  | .lost (some code) => run.exit = some code
  | _ => True

/-- The outcome is written, or it can still be published. -/
def Settled (run : Run) : Prop :=
  run.result.isSome ∨ run.pending.isSome ∨ ∃ code, run.exit = some code ∧ code ≠ 0

/-- What holds at each place of the holder once a command was accepted. -/
def Due (run : Run) : HolderAt → Prop
  | .queued => run.result.isSome
  | .attempt => run.result.isSome
  | .clearKilled => run.pending.isSome
  | .clearExited => run.pending.isSome
  | .writeResult => run.pending.isSome
  | .clearAgain => run.result.isSome
  | .drain => Settled run
  | .clearDrained => Settled run
  | .publish _ => Settled run
  | .markReleased => run.result.isSome
  | .gone => Settled run
  | _ => True

/-- The places of `_release_holder`, and after it. -/
def HolderAt.releasing : HolderAt → Bool
  | .drain => true
  | .clearDrained => true
  | .publish _ => true
  | .markReleased => true
  | .gone => true
  | _ => false

/-- The places with a command, before it was submitted. -/
def HolderAt.commanded : HolderAt → Bool
  | .prepareSlot => true
  | .run => true
  | .floor => true
  | .submit => true
  | _ => false

/-- The places before the command was submitted. -/
def HolderAt.unlaunched : HolderAt → Bool
  | .queued => true
  | .attempt => true
  | .waitCommand => true
  | .waitRelease => true
  | .waitDeadline => true
  | place => place.commanded

/-- The loop that waits for a command. -/
def HolderAt.waits : HolderAt → Bool
  | .waitCommand => true
  | .waitRelease => true
  | .waitDeadline => true
  | _ => false

/-- The leader was seen from here on. -/
def HolderAt.supervised : HolderAt → Bool
  | .poll => true
  | .check _ => true
  | .clearKilled => true
  | .captureExit => true
  | .clearExited => true
  | _ => false

/-- **What holds of a run** between the steps. -/
structure SoundRun (run : Run) : Prop where
  due : run.command = true → Due run run.holder
  released : run.status = .released → run.command = true → run.result.isSome
  exclusive : run.command = true → run.release = false
  commanded : run.holder.commanded = true ∨ 0 < run.launches → run.command = true
  unlaunched : run.holder.unlaunched = true → run.launches = 0
  tokened : run.command = true → run.token = true
  admitted : run.status = .admitted → run.token = true
  once : run.launches ≤ 1
  unexited : run.launches = 0 → run.exit = none
  unwritten : run.holder.releasing = false → run.holder ≠ .clearAgain → run.result = none
  seen : run.holder.supervised = true → run.seen = true
  gone : run.holder = .captureExit → run.leaderGone = true
  result : ∀ outcome, run.result = some outcome → Agrees run outcome
  pending : ∀ outcome, run.pending = some outcome → Agrees run outcome

/-! ### Later states -/

/-- **What stays** of a run. -/
structure Later (run run' : Run) : Prop where
  token : run.token = true → run'.token = true
  cancel : run.cancel = true → run'.cancel = true
  late : run.late = true → run'.late = true
  leaderGone : run.leaderGone = true → run'.leaderGone = true
  seen : run.seen = true → run'.seen = true
  exit : ∀ code, run.exit = some code → run'.exit = some code

theorem Agrees.later {run run' : Run} {outcome : Outcome} (h : Agrees run outcome)
    (hlater : Later run run') : Agrees run' outcome := by
  match outcome, h with
  | .exited (some code), h => exact ⟨hlater.exit code h.1, fun hzero => hlater.seen (h.2 hzero)⟩
  | .exited none, h => exact hlater.leaderGone h
  | .cancelled, h => exact hlater.cancel h
  | .deadline, h => exact hlater.late h
  | .lost (some code), h => exact hlater.exit code h
  | .lost none, _ => trivial
  | .capacityRefused, _ => trivial
  | .launchFailed, _ => trivial
  | .raised, _ => trivial

/-! ### Steps of the holder -/

/-- **What a step of the holder has to heed**: it does not leave the wait for a command that was
accepted, the slot of a command is prepared, the tree of a lost launch is proven dead unless its exit
is known, and nothing raises once the result is written, or in the handler of an accepted command. -/
def holderHeeds (a : HolderAnswer) (run : Run) : Bool :=
  if a.raised then
    if run.holder = .failed then !run.command else run.holder.releasing || run.result.isNone
  else
    match run.holder with
    | .waitDeadline => !a.late || !run.command
    | .prepareSlot => a.ok
    | .clearLost => a.ok || (run.capture a.code).exit.any (· ≠ 0)
    | _ => true

section Changes

variable {run run' : Run} {place : HolderAt} {outcome : Outcome}

theorem Settled.later (h : Settled run) (hresult : run.result.isSome → run'.result.isSome)
    (hpending : run.pending.isSome → run'.pending.isSome) (hlater : Later run run') :
    Settled run' := by
  rcases h with h | h | ⟨code, hexit, hne⟩
  · exact .inl (hresult h)
  · exact .inr (.inl (hpending h))
  · exact .inr (.inr ⟨code, hlater.exit code hexit, hne⟩)

theorem Due.later (h : Due run place) (hresult : run.result.isSome → run'.result.isSome)
    (hpending : run.pending.isSome → run'.pending.isSome) (hlater : Later run run') :
    Due run' place := by
  cases place with
  | queued => exact hresult h
  | attempt => exact hresult h
  | clearKilled => exact hpending h
  | clearExited => exact hpending h
  | writeResult => exact hpending h
  | clearAgain => exact hresult h
  | drain => exact Settled.later h hresult hpending hlater
  | clearDrained => exact Settled.later h hresult hpending hlater
  | publish cleared => exact Settled.later h hresult hpending hlater
  | markReleased => exact hresult h
  | gone => exact Settled.later h hresult hpending hlater
  | _ => trivial

theorem due_of_result (h : run.result.isSome) (hplace : place = .clearAgain ∨ place.releasing = true) :
    Due run place := by
  cases place with
  | clearAgain => exact h
  | drain => exact .inl h
  | clearDrained => exact .inl h
  | publish cleared => exact .inl h
  | markReleased => exact h
  | gone => exact .inl h
  | _ => simp [HolderAt.releasing] at hplace

section

variable (h : SoundRun run)
include h

/-- **The holder goes on.** -/
theorem SoundRun.goto (hdue : run.command = true → Due run place)
    (hcommanded : place.commanded = true → run.command = true)
    (hunlaunched : place.unlaunched = true → run.launches = 0)
    (hunwritten : place.releasing = false → place ≠ .clearAgain → run.result = none)
    (hseen : place.supervised = true → run.seen = true)
    (hgone : place = .captureExit → run.leaderGone = true) : SoundRun (run.goto place) :=
  { h with
    due hcommand := Due.later (hdue hcommand) id id ⟨id, id, id, id, id, fun _ => id⟩
    commanded hplace := hplace.elim hcommanded fun hlt => h.commanded (.inr hlt)
    unlaunched := hunlaunched
    unwritten := hunwritten
    seen := hseen
    gone := hgone
    result o ho := (h.result o ho).later ⟨id, id, id, id, id, fun _ => id⟩
    pending o ho := (h.pending o ho).later ⟨id, id, id, id, id, fun _ => id⟩ }

/-- **Something is found**, and the outcome stays. -/
theorem SoundRun.mark (hlater : Later run run') (hcommand : run'.command = run.command)
    (hrelease : run'.release = run.release) (hresult : run'.result = run.result)
    (hpending : run'.pending = run.pending) (hholder : run'.holder = run.holder)
    (hlaunches : run'.launches = run.launches)
    (hstatus : run'.status = .released → run.status = .released)
    (hadmitted : run'.status = .admitted → run'.token = true)
    (hexit : run.launches = 0 → run'.exit = none) : SoundRun run' where
  due hc := by
    rw [hholder]
    rw [hcommand] at hc
    exact (h.due hc).later (by rw [hresult]; exact id) (by rw [hpending]; exact id) hlater
  released hs hc := by
    rw [hcommand] at hc
    rw [hresult]
    exact h.released (hstatus hs) hc
  exclusive hc := by
    rw [hcommand] at hc
    rw [hrelease]
    exact h.exclusive hc
  commanded hplace := by
    rw [hholder, hlaunches] at hplace
    rw [hcommand]
    exact h.commanded hplace
  unlaunched hplace := by
    rw [hholder] at hplace
    rw [hlaunches]
    exact h.unlaunched hplace
  tokened hc := by
    rw [hcommand] at hc
    exact hlater.token (h.tokened hc)
  admitted := hadmitted
  once := by rw [hlaunches]; exact h.once
  unexited hzero := by
    rw [hlaunches] at hzero
    exact hexit hzero
  unwritten hplace hne := by
    rw [hholder] at hplace hne
    rw [hresult]
    exact h.unwritten hplace hne
  seen hplace := by
    rw [hholder] at hplace
    exact hlater.seen (h.seen hplace)
  gone hplace := by
    rw [hholder] at hplace
    exact hlater.leaderGone (h.gone hplace)
  result o ho := by
    rw [hresult] at ho
    exact (h.result o ho).later hlater
  pending o ho := by
    rw [hpending] at ho
    exact (h.pending o ho).later hlater

/-- **An outcome is pending.** -/
theorem SoundRun.pend (outcome : Outcome) (hagrees : Agrees run outcome) :
    SoundRun (run.pend outcome) :=
  { h with
    due hc := (h.due hc).later id (fun _ => rfl) ⟨id, id, id, id, id, fun _ => id⟩
    result o ho := (h.result o ho).later ⟨id, id, id, id, id, fun _ => id⟩
    pending o ho := by
      cases ho
      exact hagrees.later ⟨id, id, id, id, id, fun _ => id⟩ }

/-- **The result is written**, and the supervision is over. -/
theorem SoundRun.write (hagrees : Agrees run outcome)
    (hplace : place = .clearAgain ∨ place.releasing = true) :
    SoundRun { run with result := some outcome, holder := place } :=
  { h with
    due _ := due_of_result rfl hplace
    released _ _ := rfl
    commanded hc := by
      refine h.commanded (.inr (hc.resolve_left fun hcommanded => ?_))
      rcases hplace with rfl | hreleasing
      · cases hcommanded
      · cases place <;> cases hcommanded <;> cases hreleasing
    unlaunched hunlaunched := by
      rcases hplace with rfl | hreleasing
      · cases hunlaunched
      · cases place <;> cases hunlaunched <;> cases hreleasing
    unwritten hreleasing hne := by
      rcases hplace with heq | hplace
      · exact absurd heq hne
      · rw [show place.releasing = false from hreleasing] at hplace
        cases hplace
    seen hsupervised := by
      rcases hplace with rfl | hreleasing
      · cases hsupervised
      · cases place <;> cases hsupervised <;> cases hreleasing
    gone heq := by
      rcases hplace with rfl | hreleasing
      · cases heq
      · cases heq
        cases hreleasing
    result o ho := by
      cases ho
      exact hagrees.later ⟨id, id, id, id, id, fun _ => id⟩
    pending o ho := (h.pending o ho).later ⟨id, id, id, id, id, fun _ => id⟩ }

/-- **The pending outcome is written.** -/
theorem SoundRun.writePending (hnone : run.result = none)
    (hdue : run.command = true → run.pending.isSome) :
    SoundRun { run with result := run.pending, holder := .clearAgain } := by
  rcases Option.eq_none_or_eq_some run.pending with hpending | ⟨outcome, hpending⟩
  · have hsame : { run with result := run.pending, holder := .clearAgain } = run.goto .clearAgain := by
      unfold Run.goto
      rw [hpending, hnone]
    rw [hsame]
    refine h.goto (fun hc => ?_) nofun nofun (fun _ hne => absurd rfl hne) nofun nofun
    have hsome := hdue hc
    rw [hpending] at hsome
    cases hsome
  · have hsame : { run with result := run.pending, holder := .clearAgain } =
        { run with result := some outcome, holder := .clearAgain } := by
      rw [hpending]
    rw [hsame]
    exact h.write (h.pending outcome hpending) (.inl rfl)

end

end Changes

section Steps

variable {run : Run} {a : HolderAnswer}

theorem capture_exit_some {code : ℤ} (h : run.exit = some code) (found : Option ℤ) :
    (run.capture found).exit = some code := by
  unfold Run.capture
  split
  · exact h
  · show (run.exit <|> found) = some code
    rw [h]
    rfl

theorem capture_eq (found : Option ℤ) :
    run.capture found = { run with exit := (run.capture found).exit } := by
  unfold Run.capture
  split <;> rfl

theorem later_capture (run : Run) (found : Option ℤ) : Later run (run.capture found) := by
  rw [capture_eq found]
  exact ⟨id, id, id, id, id, fun code hcode => capture_exit_some hcode found⟩

theorem SoundRun.capture (h : SoundRun run) (found : Option ℤ) : SoundRun (run.capture found) := by
  have hlater := later_capture run found
  have hexit : run.launches = 0 → (run.capture found).exit = none := by
    intro hzero
    unfold Run.capture
    rw [if_pos hzero]
    exact h.unexited hzero
  rw [capture_eq found] at hlater ⊢
  exact h.mark hlater rfl rfl rfl rfl rfl rfl id h.admitted hexit

theorem publishPending_cases (run : Run) : run.publishPending = run ∨
    ∃ outcome, run.result = none ∧ run.publishPending = { run with result := some outcome } ∧
      (run.pending = some outcome ∨
        (run.pending = none ∧ ∃ code, run.exit = some code ∧ outcome = .exited (some code))) := by
  cases hresult : run.result with
  | some outcome => exact .inl (by simp only [Run.publishPending, hresult])
  | none =>
    cases hpending : run.pending with
    | some outcome =>
      exact .inr ⟨outcome, rfl, by simp only [Run.publishPending, hresult, hpending], .inl rfl⟩
    | none =>
      cases hexit : run.exit with
      | some code =>
        exact .inr ⟨.exited (some code), rfl,
          by simp only [Run.publishPending, hresult, hpending, hexit], .inr ⟨rfl, code, rfl, rfl⟩⟩
      | none => exact .inl (by simp only [Run.publishPending, hresult, hpending, hexit])

theorem result_of_settled (h : Settled run) : run.publishPending.result.isSome := by
  unfold Run.publishPending
  split
  · rename_i outcome hresult
    rw [hresult]
    rfl
  · rfl
  · rfl
  · rename_i hresult hpending hexit
    rcases h with h | h | ⟨code, h, _⟩
    · rw [hresult] at h
      cases h
    · rw [hpending] at h
      cases h
    · rw [hexit] at h
      cases h

section

variable (h : SoundRun run)
include h

/-- **What is published agrees with what was found.** -/
theorem agrees_of_publish {outcome : Outcome} (hsettled : run.command = true → Settled run)
    (hresult : run.result = none)
    (hfrom : run.pending = some outcome ∨
      (run.pending = none ∧ ∃ code, run.exit = some code ∧ outcome = .exited (some code))) :
    Agrees run outcome := by
  rcases hfrom with hpending | ⟨hpending, code, hexit, rfl⟩
  · exact h.pending outcome hpending
  · refine ⟨hexit, fun hzero => ?_⟩
    -- an exit code is of a job, and a job is of a command
    have hlaunched : 0 < run.launches := by
      by_contra hnone
      rw [h.unexited (by omega)] at hexit
      cases hexit
    rcases hsettled (h.commanded (.inr hlaunched)) with hsome | hsome | ⟨code', hcode, hne⟩
    · rw [hresult] at hsome
      cases hsome
    · rw [hpending] at hsome
      cases hsome
    · rw [hexit] at hcode
      cases hcode
      exact absurd hzero hne

/-! ### Each step -/

variable {place : HolderAt}

theorem SoundRun.toUnlaunched (hfrom : run.holder.unlaunched = true)
    (hplace : place.unlaunched = true)
    (hcommanded : place.commanded = true → run.command = true)
    (hdue : run.command = true → Due run place) : SoundRun (run.goto place) := by
  have hnone : run.result = none := by
    refine h.unwritten ?_ ?_
    · cases hholder : run.holder <;> rw [hholder] at hfrom <;> first | rfl | cases hfrom
    · rintro heq
      rw [heq] at hfrom
      cases hfrom
  refine h.goto hdue hcommanded (fun _ => h.unlaunched hfrom) (fun _ _ => hnone) ?_ ?_
  · intro hsupervised
    cases place <;> cases hplace <;> cases hsupervised
  · rintro rfl
    cases hplace

theorem SoundRun.toReleasing (hplace : place.releasing = true)
    (hdue : run.command = true → Due run place) : SoundRun (run.goto place) := by
  refine h.goto hdue ?_ ?_ ?_ ?_ ?_
  · intro hcommanded
    cases place <;> cases hplace <;> cases hcommanded
  · intro hunlaunched
    cases place <;> cases hplace <;> cases hunlaunched
  · intro hreleasing
    rw [hplace] at hreleasing
    cases hreleasing
  · intro hsupervised
    cases place <;> cases hplace <;> cases hsupervised
  · rintro rfl
    cases hplace

theorem SoundRun.toLaunched (hnone : run.result = none)
    (hplace : place.unlaunched = false) (hseen : place.supervised = true → run.seen = true)
    (hgone : place = .captureExit → run.leaderGone = true)
    (hdue : run.command = true → Due run place) : SoundRun (run.goto place) := by
  refine h.goto hdue ?_ ?_ (fun _ _ => hnone) hseen hgone
  · intro hcommanded
    cases place <;> cases hcommanded <;> cases hplace
  · intro hunlaunched
    rw [hplace] at hunlaunched
    cases hunlaunched

/-- **Before the launch.** -/
theorem next_unlaunched (hplace : run.holder.unlaunched = true)
    (hheeds : holderHeeds a run = true) (hraised : a.raised = false) :
    SoundRun (run.next a) := by
  rw [holderHeeds, hraised, if_neg Bool.false_ne_true] at hheeds
  have hdue := h.due
  unfold Run.next
  cases hholder : run.holder with
  | queued =>
    rw [hholder] at hdue
    dsimp only
    split
    · exact h.toReleasing rfl fun hc => .inl (hdue hc)
    · exact h.toUnlaunched hplace rfl nofun hdue
  | attempt =>
    rw [hholder] at hdue
    dsimp only
    split
    · have hmark : SoundRun { run with
          status := if a.ok then .admitted else run.status, token := true } := by
        refine h.mark ⟨fun _ => rfl, id, id, id, id, fun _ => id⟩ rfl rfl rfl rfl rfl rfl ?_
          (fun _ => rfl) h.unexited
        intro hs
        cases hok : a.ok with
        | true => simp [hok] at hs
        | false => simpa [hok] using hs
      exact hmark.toUnlaunched hplace rfl nofun fun _ => trivial
    · exact h.toUnlaunched hplace rfl nofun hdue
  | waitCommand =>
    dsimp only
    split
    · rename_i hcommand
      exact h.toUnlaunched hplace rfl (fun _ => hcommand) fun _ => trivial
    · exact h.toUnlaunched hplace rfl nofun fun _ => trivial
  | waitRelease =>
    dsimp only
    split
    · rename_i hrelease
      refine h.toReleasing rfl fun hc => ?_
      rw [h.exclusive hc] at hrelease
      cases hrelease
    · exact h.toUnlaunched hplace rfl nofun fun _ => trivial
  | waitDeadline =>
    rw [hholder] at hheeds
    dsimp only
    split
    · rename_i hlate
      refine h.toReleasing rfl fun hc => ?_
      simp [hlate, hc] at hheeds
    · exact h.toUnlaunched hplace rfl nofun fun _ => trivial
  | prepareSlot =>
    rw [hholder] at hheeds
    dsimp only
    rw [if_pos hheeds]
    exact h.toUnlaunched hplace rfl (fun _ => h.commanded (.inl (by rw [hholder]; rfl)))
      fun _ => trivial
  | run =>
    have hmark : SoundRun { run with status := .running, deadlineSet := true } :=
      h.mark ⟨id, id, id, id, id, fun _ => id⟩ rfl rfl rfl rfl rfl rfl nofun nofun h.unexited
    exact hmark.toUnlaunched hplace rfl (fun _ => h.commanded (.inl (by rw [hholder]; rfl)))
      fun _ => trivial
  | floor =>
    dsimp only
    split
    · exact h.toUnlaunched hplace rfl (fun _ => h.commanded (.inl (by rw [hholder]; rfl)))
        fun _ => trivial
    · exact h.write trivial (.inr rfl)
  | submit =>
    have hcommand := h.commanded (.inl (by rw [hholder]; rfl))
    have hzero := h.unlaunched hplace
    have hnone := h.unwritten (by rw [hholder]; rfl) (by rw [hholder]; exact nofun)
    refine ⟨fun _ => trivial, h.released, h.exclusive, fun _ => hcommand, nofun, h.tokened,
      h.admitted, ?_,
      fun hsucc => absurd hsucc (Nat.succ_ne_zero _), fun _ _ => hnone, nofun, nofun,
      fun o ho => (h.result o ho).later ⟨id, id, id, id, id, fun _ => id⟩,
      fun o ho => (h.pending o ho).later ⟨id, id, id, id, id, fun _ => id⟩⟩
    show run.launches + 1 ≤ 1
    omega
  | _ =>
    rw [hholder] at hplace
    cases hplace

/-- **From the launch to the result.** -/
theorem next_launched (hplace : run.holder.unlaunched = false)
    (hreleasing : run.holder.releasing = false) (hheeds : holderHeeds a run = true)
    (hraised : a.raised = false) : SoundRun (run.next a) := by
  rw [holderHeeds, hraised, if_neg Bool.false_ne_true] at hheeds
  have hdue := h.due
  have hnone : run.holder ≠ .clearAgain → run.result = none := h.unwritten hreleasing
  have hseen := h.seen
  unfold Run.next
  cases hholder : run.holder with
  | submitted =>
    have hnone := hnone (by rw [hholder]; exact nofun)
    dsimp only
    split
    · exact h.toLaunched hnone rfl nofun nofun fun _ => trivial
    · refine (h.capture a.code).toLaunched ?_ rfl nofun nofun fun _ => trivial
      rw [capture_eq]
      exact hnone
    · exact h.toLaunched hnone rfl nofun nofun fun _ => trivial
  | noteLaunchFailed =>
    have hnone := hnone (by rw [hholder]; exact nofun)
    exact (h.pend .launchFailed trivial).toLaunched hnone rfl nofun nofun fun _ =>
      trivial
  | writeLaunchFailed => exact h.write trivial (.inr rfl)
  | clearLost =>
    have hnone := hnone (by rw [hholder]; exact nofun)
    rw [hholder] at hheeds
    dsimp only
    split
    · refine (h.capture a.code).toLaunched ?_ rfl nofun nofun fun _ => trivial
      rw [capture_eq]
      exact hnone
    · rename_i hok
      refine (h.capture a.code).toReleasing rfl fun _ => .inr (.inr ?_)
      have hany : (run.capture a.code).exit.any (· ≠ 0) = true := by
        simpa [hok] using hheeds
      cases hexit : (run.capture a.code).exit with
      | none =>
        rw [hexit] at hany
        cases hany
      | some code =>
        rw [hexit] at hany
        exact ⟨code, rfl, by simpa using hany⟩
  | writeLost =>
    refine h.write ?_ (.inr rfl)
    cases hexit : run.exit with
    | none => trivial
    | some code => exact hexit
  | awaitExec =>
    have hnone := hnone (by rw [hholder]; exact nofun)
    have hmark : SoundRun { run with seen := true } :=
      h.mark ⟨id, id, id, id, fun _ => rfl, fun _ => id⟩ rfl rfl rfl rfl rfl rfl id h.admitted h.unexited
    exact hmark.toLaunched hnone rfl (fun _ => rfl) nofun fun _ => trivial
  | poll =>
    have hnone := hnone (by rw [hholder]; exact nofun)
    exact h.toLaunched hnone rfl (fun _ => hseen (by rw [hholder]; rfl)) nofun fun _ => trivial
  | check same =>
    have hnone := hnone (by rw [hholder]; exact nofun)
    have hseen := hseen (by rw [hholder]; rfl)
    dsimp only
    unfold Run.supervise
    split
    · rename_i hcancel
      exact (h.pend .cancelled hcancel).toLaunched hnone rfl (fun _ => hseen) nofun
        fun _ => rfl
    · split
      · have hmark : SoundRun { run with late := true } :=
          h.mark ⟨id, id, fun _ => rfl, id, id, fun _ => id⟩ rfl rfl rfl rfl rfl rfl id h.admitted h.unexited
        exact (hmark.pend .deadline rfl).toLaunched hnone rfl (fun _ => hseen) nofun
          fun _ => rfl
      · split
        · exact h.toLaunched hnone rfl (fun _ => hseen) nofun fun _ => trivial
        · exact h.toLaunched hnone rfl (fun _ => hseen) nofun fun _ => trivial
        · have hmark : SoundRun { run with leaderGone := true } :=
            h.mark ⟨id, id, id, fun _ => rfl, id, fun _ => id⟩ rfl rfl rfl rfl rfl rfl id h.admitted h.unexited
          exact hmark.toLaunched hnone rfl (fun _ => hseen) (fun _ => rfl) fun _ => trivial
  | clearKilled =>
    have hnone := hnone (by rw [hholder]; exact nofun)
    have hseen := hseen (by rw [hholder]; rfl)
    rw [hholder] at hdue
    have hcapture := h.capture a.code
    have hlater := later_capture run a.code
    rw [capture_eq] at hcapture hlater
    dsimp only
    rw [capture_eq]
    split
    · exact hcapture.toLaunched hnone rfl nofun nofun hdue
    · exact hcapture.toLaunched hnone rfl (fun _ => hseen) nofun fun _ => trivial
  | captureExit =>
    have hnone := hnone (by rw [hholder]; exact nofun)
    have hseen := hseen (by rw [hholder]; rfl)
    have hgone := h.gone hholder
    have hcapture := h.capture a.code
    rw [capture_eq] at hcapture
    dsimp only
    rw [capture_eq]
    refine (hcapture.pend _ ?_).toLaunched hnone rfl (fun _ => hseen) nofun fun _ => rfl
    show Agrees { run with exit := (run.capture a.code).exit }
      (.exited (run.capture a.code).exit)
    cases hexit : (run.capture a.code).exit with
    | none => exact hgone
    | some code => exact ⟨rfl, fun _ => hseen⟩
  | clearExited =>
    have hnone := hnone (by rw [hholder]; exact nofun)
    rw [hholder] at hdue
    have hcapture := h.capture a.code
    rw [capture_eq] at hcapture
    dsimp only
    rw [capture_eq]
    split
    · exact hcapture.toLaunched hnone rfl nofun nofun hdue
    · exact hcapture.toReleasing rfl fun hc => .inr (.inl (hdue hc))
  | writeResult =>
    have hnone := hnone (by rw [hholder]; exact nofun)
    rw [hholder] at hdue
    exact h.writePending hnone hdue
  | clearAgain =>
    rw [hholder] at hdue
    dsimp only
    split
    · exact h.toReleasing rfl fun hc => .inl (hdue hc)
    · refine h.goto hdue nofun nofun (fun _ hne => absurd rfl hne) nofun nofun
  | failed => exact h.write trivial (.inr rfl)
  | _ =>
    rw [hholder] at hplace hreleasing
    first
      | exact Bool.noConfusion hplace
      | exact Bool.noConfusion hreleasing

/-- **In `_release_holder`.** -/
theorem next_releasing (hreleasing : run.holder.releasing = true) :
    SoundRun (run.next a) := by
  have hdue := h.due
  unfold Run.next
  cases hholder : run.holder with
  | drain =>
    rw [hholder] at hdue
    dsimp only
    split
    · have hmark : SoundRun { run with status := .draining } :=
        h.mark ⟨id, id, id, id, id, fun _ => id⟩ rfl rfl rfl rfl rfl rfl nofun nofun h.unexited
      exact hmark.toReleasing rfl hdue
    · rename_i htoken
      have huncommanded : run.command ≠ true := fun hc => htoken (h.tokened hc)
      have hgoto : SoundRun (run.goto .gone) :=
        h.toReleasing rfl fun hc => absurd hc huncommanded
      exact ⟨hgoto.due, fun _ hc => absurd hc huncommanded, hgoto.exclusive, hgoto.commanded,
        hgoto.unlaunched, hgoto.tokened, nofun, hgoto.once, hgoto.unexited, hgoto.unwritten,
        hgoto.seen, hgoto.gone, hgoto.result, hgoto.pending⟩
  | clearDrained =>
    rw [hholder] at hdue
    have hcapture := h.capture a.code
    have hlater := later_capture run a.code
    rw [capture_eq] at hcapture hlater
    dsimp only
    rw [capture_eq]
    exact hcapture.toReleasing rfl fun hc => Settled.later (hdue hc) id id hlater
  | publish cleared =>
    rw [hholder] at hdue
    cases cleared with
    | true =>
      dsimp only
      rcases publishPending_cases run with hsame | ⟨outcome, hnone, heq, hfrom⟩
      · rw [hsame]
        refine h.toReleasing rfl fun hc => ?_
        have hresult := result_of_settled (hdue hc)
        rw [hsame] at hresult
        exact hresult
      · rw [heq]
        exact h.write (agrees_of_publish h hdue hnone hfrom) (.inr rfl)
    | false =>
      have hmark : SoundRun { run with status := .draining } :=
        h.mark ⟨id, id, id, id, id, fun _ => id⟩ rfl rfl rfl rfl rfl rfl nofun nofun h.unexited
      exact hmark.toReleasing rfl hdue
  | markReleased =>
    rw [hholder] at hdue
    have hgoto : SoundRun (run.goto .gone) := h.toReleasing rfl fun hc => .inl (hdue hc)
    exact ⟨hgoto.due, fun _ => hdue, hgoto.exclusive, hgoto.commanded, hgoto.unlaunched,
      hgoto.tokened, nofun, hgoto.once, hgoto.unexited, hgoto.unwritten, hgoto.seen, hgoto.gone, hgoto.result,
      hgoto.pending⟩
  | gone => exact h
  | _ =>
    rw [hholder] at hreleasing
    exact Bool.noConfusion hreleasing

/-- **An exception** leads to the handler while no result is written, and out of the release. -/
theorem raise_sound (hheeds : holderHeeds a run = true) (hraised : a.raised = true) :
    SoundRun run.raise := by
  rw [holderHeeds, hraised, if_pos rfl] at hheeds
  have hdue := h.due
  unfold Run.raise
  cases hholder : run.holder with
  | failed =>
    rw [if_pos hholder] at hheeds
    refine h.toReleasing rfl fun hc => ?_
    rw [hc] at hheeds
    cases hheeds
  | drain =>
    rw [hholder] at hdue
    exact h.toReleasing rfl hdue
  | clearDrained =>
    rw [hholder] at hdue
    exact h.toReleasing rfl hdue
  | publish cleared =>
    rw [hholder] at hdue
    exact h.toReleasing rfl hdue
  | markReleased =>
    rw [hholder] at hdue
    exact h.toReleasing rfl fun hc => .inl (hdue hc)
  | gone => exact h
  | _ =>
    rw [if_neg (by rw [hholder]; exact nofun), hholder] at hheeds
    exact h.toLaunched (Option.isNone_iff_eq_none.mp hheeds) rfl nofun nofun fun _ => trivial

/-- **A step of the holder** that heeds what it may lose keeps what holds of the run. -/
theorem holderStep_sound (hheeds : holderHeeds a run = true) :
    SoundRun (holderStep a run) := by
  unfold holderStep
  split
  · rename_i hraised
    exact raise_sound h hheeds hraised
  · rename_i hraised
    rw [Bool.not_eq_true] at hraised
    cases hreleasing : run.holder.releasing with
    | true => exact next_releasing h hreleasing
    | false =>
      cases hunlaunched : run.holder.unlaunched with
      | true => exact next_unlaunched h hunlaunched hheeds hraised
      | false => exact next_launched h hunlaunched hreleasing hheeds hraised

end

/-! ### What the holder leaves alone -/

/-- **What the holder leaves**: the files of the requests and its token, and it releases the lease
only at its end. -/
structure HolderLeaves (run run' : Run) : Prop where
  owner : run'.owner = run.owner
  command : run'.command = run.command
  release : run'.release = run.release
  cancel : run'.cancel = run.cancel
  commandLock : run'.commandLock = run.commandLock
  token : run.token = true → run'.token = true
  released : run'.status = .released → run.status = .released ∨ run'.holder = .gone

theorem HolderLeaves.goto {run' : Run} (h : HolderLeaves run run')
    (hstatus : run'.status = run.status) : HolderLeaves run (run'.goto place) :=
  ⟨h.owner, h.command, h.release, h.cancel, h.commandLock, h.token,
    fun hs => .inl (hstatus.symm.trans hs)⟩

theorem leaves_refl : HolderLeaves run run := ⟨rfl, rfl, rfl, rfl, rfl, id, .inl⟩

theorem leaves_capture (found : Option ℤ) : HolderLeaves run (run.capture found) := by
  rw [capture_eq]
  exact ⟨rfl, rfl, rfl, rfl, rfl, id, .inl⟩

theorem status_capture (found : Option ℤ) : (run.capture found).status = run.status := by
  rw [capture_eq]

theorem leaves_publish : HolderLeaves run run.publishPending ∧
    run.publishPending.status = run.status := by
  rcases publishPending_cases run with hsame | ⟨outcome, _, heq, _⟩
  · rw [hsame]
    exact ⟨leaves_refl, rfl⟩
  · rw [heq]
    exact ⟨⟨rfl, rfl, rfl, rfl, rfl, id, .inl⟩, rfl⟩

theorem leaves_raise : HolderLeaves run run.raise := by
  unfold Run.raise
  split
  case h_6 => exact leaves_refl
  all_goals exact leaves_refl.goto rfl

theorem leaves_next : HolderLeaves run (run.next a) := by
  have hgoto : ∀ place, HolderLeaves run (run.goto place) := fun _ => leaves_refl.goto rfl
  have hcapture : ∀ place, HolderLeaves run ((run.capture a.code).goto place) := fun _ =>
    (leaves_capture a.code).goto (status_capture a.code)
  unfold Run.next
  cases hholder : run.holder with
  | queued =>
    dsimp only
    split
    · exact hgoto _
    · exact hgoto _
  | attempt =>
    dsimp only
    split
    · refine ⟨rfl, rfl, rfl, rfl, rfl, fun _ => rfl, fun hs => .inl ?_⟩
      cases hok : a.ok with
      | true => simp [hok] at hs
      | false => simpa [hok] using hs
    · exact hgoto _
  | run => exact ⟨rfl, rfl, rfl, rfl, rfl, id, nofun⟩
  | floor =>
    dsimp only
    split
    · exact hgoto _
    · exact ⟨rfl, rfl, rfl, rfl, rfl, id, .inl⟩
  | submitted =>
    dsimp only
    split
    · exact hgoto _
    · exact hcapture _
    · exact hgoto _
  | clearLost => exact hcapture _
  | check same =>
    dsimp only
    unfold Run.supervise
    split
    · exact ⟨rfl, rfl, rfl, rfl, rfl, id, .inl⟩
    · split
      · exact ⟨rfl, rfl, rfl, rfl, rfl, id, .inl⟩
      · split
        · exact hgoto _
        · exact hgoto _
        · exact ⟨rfl, rfl, rfl, rfl, rfl, id, .inl⟩
  | clearKilled => exact hcapture _
  | captureExit =>
    dsimp only
    rw [capture_eq]
    exact ⟨rfl, rfl, rfl, rfl, rfl, id, .inl⟩
  | clearExited => exact hcapture _
  | drain =>
    dsimp only
    split
    · exact ⟨rfl, rfl, rfl, rfl, rfl, id, nofun⟩
    · exact ⟨rfl, rfl, rfl, rfl, rfl, id, fun _ => .inr rfl⟩
  | clearDrained => exact hcapture _
  | publish cleared =>
    cases cleared with
    | true => exact leaves_publish.1.goto leaves_publish.2
    | false => exact ⟨rfl, rfl, rfl, rfl, rfl, id, nofun⟩
  | markReleased => exact ⟨rfl, rfl, rfl, rfl, rfl, id, fun _ => .inr rfl⟩
  | gone => exact leaves_refl
  | _ => exact ⟨rfl, rfl, rfl, rfl, rfl, id, .inl⟩

/-- **A step of the holder.** -/
theorem holderStep_leaves (run : Run) (a : HolderAnswer) : HolderLeaves run (holderStep a run) := by
  unfold holderStep
  split
  · exact leaves_raise
  · exact leaves_next

theorem holderStep_gone (h : run.holder = .gone) : holderStep a run = run := by
  unfold holderStep Run.raise Run.next
  rw [h]
  exact ite_self run

/-- **A result that is written stays.** -/
theorem holderStep_result {outcome : Outcome} (h : SoundRun run) (ho : run.result = some outcome) :
    (holderStep a run).result = some outcome := by
  have hplace : run.holder = .clearAgain ∨ run.holder.releasing = true := by
    by_contra hno
    rw [not_or, Bool.not_eq_true] at hno
    rw [h.unwritten hno.2 hno.1] at ho
    cases ho
  have hpublish : run.publishPending.result = some outcome := by
    unfold Run.publishPending
    rw [ho]
    exact ho
  unfold holderStep Run.raise Run.next
  cases hholder : run.holder with
  | clearAgain => split <;> exact ho
  | drain =>
    split
    · exact ho
    · dsimp only
      split <;> exact ho
  | clearDrained =>
    split
    · exact ho
    · dsimp only
      rw [capture_eq]
      exact ho
  | publish cleared =>
    cases cleared with
    | true =>
      split
      · exact ho
      · exact hpublish
    | false => split <;> exact ho
  | markReleased => split <;> exact ho
  | gone => split <;> exact ho
  | _ =>
    rw [hholder] at hplace
    rcases hplace with heq | heq
    · cases heq
    · cases heq

end Steps

end GoalFlight.RemoteCi
