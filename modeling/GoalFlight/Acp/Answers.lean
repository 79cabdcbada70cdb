import GoalFlight.Acp.InlineHolds

/-!
# ACP: a permission is answered by its first decision

A hold is answered by the first decision that became readable for its key, its request is listed
until then, and no decision is written over another one, in every run whose removals leave what an
open hold needs (`inline_permission`).  Two of the removals do not: a sweep goes by the age of a
file, and a hold that was acknowledged may be older; and `write_decision` removes a malformed file
that it has read, which by then may be another writer's decision.
-/

namespace GoalFlight.Acp

open PermissionDir

variable {place : Place} {outcome : HoldOutcome}

/-! ### Runs -/

/-- Some call holds the key open. -/
def holdsOpen (s : PermitState) (key : String) : Bool :=
  (s.shared.opener key).any fun q => (s.place q).open? = some key

/-- **What a step has to heed.**  A request's record is small enough to be read, `write_decision`
removes no decision that can be read, and a sweep removes neither the request of an open hold nor a
decision that it could read. -/
def heedsAt (s : PermitState) (a : Answer) : Place → Bool
  | .holding h _ .writeRequest => !a.ok || h.small
  | .writing d .unlinkMalformed => (s.shared.readDecision d.key).isNone
  | .writing d .unlinkSpecial => (s.shared.readDecision d.key).isNone
  | .sweeping (.request key) => !holdsOpen s key
  | .sweeping (.decision key) => !holdsOpen s key || (s.shared.readDecision key).isNone
  | _ => true

/-- Only turns have something to heed. -/
def heeds (s : PermitState) : PermitAction → Bool
  | .turn p a => heedsAt s a (s.place p)
  | _ => true

/-- What holds between the steps. -/
abbrev SoundPermits : PermitState → Prop := Threads.Holds SoundDir At

theorem soundPermits_start : SoundPermits PermitState.start where
  inv := ⟨nofun, fun _ _ => rfl⟩
  ok _ := trivial

section Steps

variable {s : PermitState} {p q : ℕ} {key : String}

theorem holdsOpen_of_open (hopen : (s.place q).open? = some key)
    (hopener : s.shared.opener key = some q) : holdsOpen s key = true := by
  unfold holdsOpen
  rw [hopener]
  show decide ((s.place q).open? = some key) = true
  rw [hopen]
  exact decide_eq_true rfl

/-- **A sweep that heeds the open holds.** -/
theorem sweep_moves {path : PermitPath} (hsound : SoundDir s.shared)
    (hplace : s.place p = .sweeping path) {a : Answer} (hheeds : heeds s (.turn p a) = true) :
    Moves s.shared s.place p (s.shared.remove path, .idle) where
  sound := hsound.remove path
  own := trivial
  others q _ := by
    refine Frame.remove fun k hk hq hkey => ?_
    have hopen := holdsOpen_of_open hk hq
    rw [heeds, hplace] at hheeds
    cases path with
    | request key =>
      rw [show k = key from hkey] at hopen
      have hclosed : (!holdsOpen s key) = true := hheeds
      rw [hopen] at hclosed
      cases hclosed
    | ack key => exact ⟨readDecision_congr rfl, rfl⟩
    | decision key =>
      rw [show k = key from hkey] at hopen ⊢
      have hnone : s.shared.readDecision key = none := by
        simpa [heedsAt, hopen] using hheeds
      refine ⟨?_, congrFun unlinkDecision_request key⟩
      rw [hnone]
      exact readDecision_unlink_self hnone

/-- **A turn** that heeds what it removes. -/
theorem permitTurn_moves {a : Answer} (h : SoundPermits s) (hheeds : heeds s (.turn p a) = true) :
    Moves s.shared s.place p (permitTurn a p s.shared (s.place p)) := by
  have hat := h.ok p
  cases hplace : s.place p with
  | idle => exact Moves.stay h.inv trivial
  | holding hold acked pc =>
    rw [hplace] at hat
    refine holdTurn_moves h.inv hat fun hpc hok => ?_
    subst hpc
    rw [heeds, hplace] at hheeds
    simpa [heedsAt, hok] using hheeds
  | clearing hold outcome left =>
    rw [hplace] at hat
    cases left with
    | nil => exact Moves.stay h.inv hat.2.2
    | cons path left => exact clear_moves h.inv hat
  | returned hold outcome =>
    rw [hplace] at hat
    exact Moves.stay h.inv hat
  | writing d pc =>
    rw [hplace] at hat
    refine writeTurn_moves h.inv hat fun hpc => ?_
    rw [heeds, hplace] at hheeds
    rcases hpc with rfl | rfl <;> exact Option.isNone_iff_eq_none.mp hheeds
  | sweeping path => exact sweep_moves h.inv hplace hheeds

theorem litter_eq (dir : PermissionDir) (key : String) (node : Node) (now : ℚ) :
    ∃ node' next, dir.litter key node now =
        { dir.putDecision key (some ⟨node', now⟩) with nextInode := next } ∧
      dir.nextInode ≤ next ∧
      ∀ i content, node' = .regular i content → i = dir.nextInode ∧ content = none ∧ i < next := by
  match node with
  | .regular _ _ =>
    refine ⟨.regular dir.nextInode none, dir.nextInode + 1, rfl, Nat.le_succ _, ?_⟩
    intro i content hnode
    cases hnode
    exact ⟨rfl, rfl, Nat.lt_succ_self _⟩
  | .special => exact ⟨.special, dir.nextInode, rfl, Nat.le_refl _, nofun⟩
  | .directory => exact ⟨.directory, dir.nextInode, rfl, Nat.le_refl _, nofun⟩

variable {dir : PermissionDir}

/-- **Something irregular appears** where nothing was. -/
theorem litter_keeps {node : Node} {now : ℚ} (hsound : SoundDir dir)
    (hnone : dir.decision key = none) :
    SoundDir (dir.litter key node now) ∧
      ∀ q place, Frame dir (dir.litter key node now) q place := by
  obtain ⟨node', next, heq, hnext, hnode⟩ := litter_eq dir key node now
  have hself : (dir.litter key node now).decision key = some ⟨node', now⟩ := by
    rw [heq]
    exact putDecision_self _
  have hother : ∀ k, k ≠ key → (dir.litter key node now).decision k = dir.decision k := by
    intro k hk
    rw [heq]
    exact putDecision_of_ne _ hk
  have hread : (dir.litter key node now).readDecision key = none := by
    unfold readDecision
    rw [hself]
    match node', hnode with
    | .regular i none, _ => rfl
    | .regular i (some d), hnode => exact absurd (hnode i (some d) rfl).2.1 nofun
    | .special, _ => rfl
    | .directory, _ => rfl
  refine ⟨⟨fun k i content hk => ?_, fun inode hinode => ?_⟩, fun q place => ?_⟩
  · rw [heq]
    by_cases hkey : k = key
    · rw [hkey, hself] at hk
      exact (hnode i content (Option.some.inj hk)).2.2
    · rw [hother k hkey] at hk
      exact Nat.lt_of_lt_of_le (hsound.inodes k i content hk) hnext
  · rw [heq] at hinode ⊢
    exact hsound.authors inode (Nat.le_trans hnext hinode)
  · refine Frame.decision (by rw [heq]; exact fun _ hk => hk)
      (by rw [heq]; exact fun _ hi => hi) hother (by rw [heq]; rfl) (by rw [heq]; rfl)
      (readDecision_of_none hnone) ?_ (noted_of_none hread).symm
    intro i content hq hk
    rw [hself] at hk
    exact absurd (hnode i content (Option.some.inj hk)).1 (hsound.ne_next hq)

theorem environment_keeps (h : SoundPermits s) (hsound : SoundDir dir)
    (hframe : ∀ q place, Frame s.shared dir q place) : SoundPermits (s.environment dir) :=
  h.environment hsound fun q place hat => hat.frame (hframe q place)

theorem Moves.keeps {next : PermissionDir × Place} (h : SoundPermits s)
    (hmoves : Moves s.shared s.place p next) : SoundPermits (s.turn p next) :=
  h.turn hmoves.sound hmoves.own fun q hq hat => hat.frame (hmoves.others q hq)

/-- **A step** that heeds what it removes keeps what holds at each place. -/
theorem permitStep_keeps (a : PermitAction) (h : SoundPermits s) (hheeds : heeds s a = true) :
    SoundPermits (permitStep s a) := by
  cases a with
  | ask p hold =>
    unfold permitStep
    dsimp only
    split
    · split
      · rename_i hfresh
        simp only [PermissionDir.isFresh, Bool.and_eq_true, Option.isNone_iff_eq_none] at hfresh
        obtain ⟨⟨⟨⟨hopener, _⟩, hdecision⟩, _⟩, hfirst⟩ := hfresh
        refine Moves.keeps h ⟨⟨h.inv.inodes, h.inv.authors⟩, ⟨Function.update_self .., ?_⟩, ?_⟩
        · exact (readDecision_of_none hdecision).trans hfirst.symm
        · intro q hq
          refine Frame.of_same rfl rfl rfl rfl fun k hk => ?_
          have hne : k ≠ hold.key := fun heq => by
            rw [heq, hopener] at hk
            cases hk
          exact (Function.update_of_ne hne ..).trans hk
      · exact h
    · exact h
  | decide p d =>
    unfold permitStep
    dsimp only
    split
    · exact Moves.keeps h (Moves.stay h.inv trivial)
    · exact h
  | look p path now =>
    unfold permitStep
    dsimp only
    split
    · split
      · exact Moves.keeps h (Moves.stay h.inv trivial)
      · exact h
    · exact h
  | ack key now =>
    exact environment_keeps h ⟨h.inv.inodes, h.inv.authors⟩ fun _ _ =>
      Frame.of_same rfl rfl rfl rfl fun _ hk => hk
  | litter key node now =>
    unfold permitStep
    dsimp only
    split
    · rename_i hnone
      obtain ⟨hsound, hframe⟩ := litter_keeps h.inv
        (Option.isNone_iff_eq_none.mp hnone)
      exact environment_keeps h hsound hframe
    · exact h
  | turn p a => exact Moves.keeps h (permitTurn_moves h hheeds)

/-- **A run** that heeds what it removes. -/
theorem holds_of_heeds {actions : List PermitAction} (hs : SoundPermits s)
    (hheeds : Machine.Meets permitStep (fun s a => heeds s a = true) s actions) :
    SoundPermits (Machine.run permitStep s actions) :=
  Machine.run_invariant_of_meets (fun _ a h ha => permitStep_keeps a h ha) hs hheeds

end Steps

/-! ### One outcome -/

/-- It is a turn of the call. -/
def PermitAction.isTurnOf (p : ℕ) : PermitAction → Bool
  | .turn q _ => q = p
  | _ => false

section Outcomes

variable {dir : PermissionDir} {s : PermitState} {p : ℕ} {a : Answer} {h : Hold} {d : Decision}

/-- **A turn of a hold** leads on with the same hold, and its liveness hold is released with the
outcome. -/
theorem holdTurn_outcome (acked : Bool) (pc : HoldAt) :
    (holdTurn a dir h acked pc).2.hold? = some h ∧
      ((holdTurn a dir h acked pc).2.outcome?.isSome →
        (holdTurn a dir h acked pc).1.held h.worker h.holdId = false) := by
  have hfinish : ∀ outcome, (finish dir h outcome).2.hold? = some h ∧
      ((finish dir h outcome).2.outcome?.isSome →
        (finish dir h outcome).1.held h.worker h.holdId = false) := by
    refine fun outcome => ⟨rfl, fun _ => ?_⟩
    show Function.update dir.held h.worker _ h.worker h.holdId = false
    rw [Function.update_self, Function.update_self]
  cases pc with
  | writeRequest =>
    unfold holdTurn
    dsimp only
    split
    · exact ⟨rfl, nofun⟩
    · exact hfinish _
  | readDecision =>
    unfold holdTurn
    dsimp only
    split
    · exact hfinish _
    · exact ⟨rfl, nofun⟩
  | readAck => exact ⟨rfl, nofun⟩
  | checkDeadline => exact ⟨rfl, nofun⟩
  | readAgain =>
    unfold holdTurn
    dsimp only
    split
    · exact hfinish _
    · exact hfinish _
  | sleep =>
    unfold holdTurn
    dsimp only
    split
    · exact hfinish _
    · exact ⟨rfl, nofun⟩

theorem permitTurn_hold (hhold : place.hold? = some h) :
    (permitTurn a p dir place).2.hold? = some h := by
  match place, hhold with
  | .holding hold acked pc, hhold =>
    cases hhold
    exact (holdTurn_outcome acked pc).1
  | .clearing hold outcome [], hhold => exact hhold
  | .clearing hold outcome (path :: left), hhold => exact hhold
  | .returned hold outcome, hhold => exact hhold

theorem permitTurn_outcome (houtcome : place.outcome? = some outcome) :
    (permitTurn a p dir place).2.outcome? = some outcome := by
  match place, houtcome with
  | .clearing hold outcome [], houtcome => exact houtcome
  | .clearing hold outcome (path :: left), houtcome => exact houtcome
  | .returned hold outcome, houtcome => exact houtcome

theorem permitStep_place (action : PermitAction) (hhold : (s.place p).hold? = some h) :
    (action.isTurnOf p = false ∧ (permitStep s action).place p = s.place p) ∨
      ∃ a, action = .turn p a ∧
        permitStep s action = s.turn p (permitTurn a p s.shared (s.place p)) := by
  have hidle : ∀ q, s.place q = .idle → q ≠ p := by
    rintro q hq rfl
    rw [hq] at hhold
    cases hhold
  cases action with
  | ask q hold =>
    unfold permitStep
    dsimp only
    split
    · rename_i hq
      split
      · exact .inl ⟨rfl, s.turn_place_of_ne (hidle q hq).symm _⟩
      · exact .inl ⟨rfl, rfl⟩
    · exact .inl ⟨rfl, rfl⟩
  | decide q d =>
    unfold permitStep
    dsimp only
    split
    · rename_i hq
      exact .inl ⟨rfl, s.turn_place_of_ne (hidle q hq).symm _⟩
    · exact .inl ⟨rfl, rfl⟩
  | look q path now =>
    unfold permitStep
    dsimp only
    split
    · rename_i hq
      split
      · exact .inl ⟨rfl, s.turn_place_of_ne (hidle q hq).symm _⟩
      · exact .inl ⟨rfl, rfl⟩
    · exact .inl ⟨rfl, rfl⟩
  | ack key now => exact .inl ⟨rfl, rfl⟩
  | litter key node now =>
    unfold permitStep
    dsimp only
    split
    · exact .inl ⟨rfl, rfl⟩
    · exact .inl ⟨rfl, rfl⟩
  | turn q a =>
    by_cases hq : q = p
    · subst hq
      exact .inr ⟨a, rfl, rfl⟩
    · exact .inl ⟨decide_eq_false hq, s.turn_place_of_ne (Ne.symm hq) _⟩

/-- **`write_decision` replaces nothing** that can be read, where its removals heed it. -/
theorem writeTurn_readable {pc : WriteAt} {key : String} {d₀ : Decision}
    (hat : At dir p (.writing d pc))
    (hunlink : pc = .unlinkMalformed ∨ pc = .unlinkSpecial → dir.readDecision d.key = none)
    (hread : dir.readDecision key = some d₀) :
    (writeTurn a p dir d pc).1.readDecision key = some d₀ := by
  have hremove : (pc = .unlinkMalformed ∨ pc = .unlinkSpecial) →
      (dir.unlinkDecision d.key).readDecision key = some d₀ := by
    intro hpc
    have hne : key ≠ d.key := fun heq => by
      rw [heq, hunlink hpc] at hread
      cases hread
    rw [readDecision_congr (unlinkDecision_of_ne hne)]
    exact hread
  have hcreate : ∀ content, ¬ (dir.decision d.key).isSome →
      (dir.createDecision p d.key content a.now).readDecision key = some d₀ := by
    intro content hnone
    have hne : key ≠ d.key := fun heq => by
      rw [heq] at hread
      exact hnone (isSome_of_readDecision hread)
    have hother : (dir.createDecision p d.key content a.now).decision key = dir.decision key :=
      putDecision_of_ne _ hne
    rw [readDecision_congr hother]
    exact hread
  cases pc with
  | look =>
    unfold writeTurn
    dsimp only
    split <;> exact hread
  | readDecision =>
    unfold writeTurn
    dsimp only
    split <;> exact hread
  | unlinkMalformed => exact hremove (.inl rfl)
  | lookAgain =>
    unfold writeTurn
    dsimp only
    split <;> exact hread
  | unlinkSpecial => exact hremove (.inr rfl)
  | link =>
    unfold writeTurn
    dsimp only
    split
    · exact hread
    · split
      · exact hread
      · rename_i hnone
        rw [readDecision_congr (congrFun noted_decision key)]
        exact hcreate _ hnone
  | create =>
    unfold writeTurn
    dsimp only
    split
    · exact hread
    · rename_i hnone
      exact hcreate _ hnone
  | fill inode =>
    show ((dir.fillDecision d.key inode _ a.now).noted d.key).readDecision key = some d₀
    rw [readDecision_congr (congrFun noted_decision key)]
    rcases fillDecision_cases with hsame | ⟨before, hfile, hput⟩
    · rw [hsame]
      exact hread
    · have hne : key ≠ d.key := fun heq => by
        have hempty : before = none := hat.2 before hfile
        rw [hempty] at hfile
        rw [heq, readDecision_of_empty hfile] at hread
        cases hread
      rw [hput, readDecision_congr (putDecision_of_ne _ hne)]
      exact hread

end Outcomes

/-! ### A hold returns -/

/-- How many turns a hold has left, once its deadline is over. -/
def rank : Place → ℕ
  | .holding _ _ .writeRequest => 9
  | .holding _ _ .sleep => 9
  | .holding _ _ .readDecision => 8
  | .holding _ _ .readAck => 7
  | .holding _ _ .checkDeadline => 6
  | .holding _ _ .readAgain => 5
  | .clearing _ _ left => left.length + 1
  | _ => 0

section Returns

variable {s : PermitState} {p : ℕ} {h : Hold}

/-- **A turn past the deadline** leaves fewer of them. -/
theorem rank_turn {a : Answer} (hok : a.ok = true)
    (hhold : place.hold? = some h) :
    rank (permitTurn a p dir place).2 + 1 ≤ rank place ∨
      rank (permitTurn a p dir place).2 = 0 := by
  match place, hhold with
  | .holding hold acked .writeRequest, _ =>
    refine .inl ?_
    show rank (holdTurn a dir hold acked .writeRequest).2 + 1 ≤ 9
    unfold holdTurn
    rw [if_pos hok]
    exact Nat.le_refl 9
  | .holding hold acked .readDecision, _ =>
    refine .inl ?_
    show rank (holdTurn a dir hold acked .readDecision).2 + 1 ≤ 8
    unfold holdTurn
    dsimp only
    split
    · exact (by decide : 5 ≤ 8)
    · exact Nat.le_refl 8
  | .holding hold acked .readAck, _ => exact .inl (Nat.le_refl 7)
  | .holding hold acked .checkDeadline, _ =>
    refine .inl ?_
    show rank (holdTurn a dir hold acked .checkDeadline).2 + 1 ≤ 6
    unfold holdTurn
    dsimp only
    rw [if_pos hok]
    exact Nat.le_refl 6
  | .holding hold acked .readAgain, _ =>
    refine .inl ?_
    show rank (holdTurn a dir hold acked .readAgain).2 + 1 ≤ 5
    unfold holdTurn
    dsimp only
    split
    · exact Nat.le_refl 5
    · exact Nat.le_refl 5
  | .holding hold acked .sleep, _ =>
    refine .inl ?_
    show rank (holdTurn a dir hold acked .sleep).2 + 1 ≤ 9
    unfold holdTurn
    dsimp only
    split
    · exact (by decide : 5 ≤ 9)
    · exact Nat.le_refl 9
  | .clearing hold outcome [], _ => exact .inr rfl
  | .clearing hold outcome (path :: left), _ => exact .inl (Nat.le_refl _)
  | .returned hold outcome, _ => exact .inr rfl

theorem returned_of_rank (hhold : place.hold? = some h) (hrank : rank place = 0) :
    ∃ outcome, place = .returned h outcome := by
  match place, hhold with
  | .holding hold acked pc, _ => cases pc <;> cases hrank
  | .clearing hold outcome left, _ => cases hrank
  | .returned hold outcome, hhold =>
    cases hhold
    exact ⟨outcome, rfl⟩

/-- **A hold returns** once enough of its turns are past the deadline. -/
theorem rank_run (actions : List PermitAction) (hhold : (s.place p).hold? = some h)
    (hok : ∀ a, .turn p a ∈ actions → a.ok = true) :
    ((Machine.run permitStep s actions).place p).hold? = some h ∧
      rank ((Machine.run permitStep s actions).place p) ≤
        rank (s.place p) - actions.countP (·.isTurnOf p) := by
  induction actions generalizing s with
  | nil => exact ⟨hhold, Nat.le_refl _⟩
  | cons action actions ih =>
    have hrest : ∀ a, .turn p a ∈ actions → a.ok = true := fun a ha =>
      hok a (List.mem_cons_of_mem action ha)
    rw [Machine.run_cons]
    rcases permitStep_place action hhold with ⟨hother, hsame⟩ | ⟨a, rfl, hturn⟩
    · have hnext := ih (s := permitStep s action) (by rw [hsame]; exact hhold) hrest
      refine ⟨hnext.1, ?_⟩
      rw [List.countP_cons_of_neg (by rw [hother]; exact Bool.false_ne_true), ← hsame]
      exact hnext.2
    · have hplace : (permitStep s (.turn p a)).place p =
          (permitTurn a p s.shared (s.place p)).2 := by
        rw [hturn]
        exact s.turn_place_self p _
      have hnext := ih (s := permitStep s (.turn p a))
        (by rw [hplace]; exact permitTurn_hold hhold) hrest
      refine ⟨hnext.1, ?_⟩
      have hbound := hnext.2
      rw [hplace] at hbound
      rw [List.countP_cons_of_pos (by exact decide_eq_true rfl)]
      have hrank : rank (permitTurn a p s.shared (s.place p)).2 + 1 ≤ rank (s.place p) ∨
          rank (permitTurn a p s.shared (s.place p)).2 = 0 :=
        rank_turn (hok a List.mem_cons_self) hhold
      rcases hrank with hlt | hzero
      · omega
      · omega

end Returns

/-! ### The run -/

/-- **What each step keeps**: a call goes on with its hold, an outcome stays, the liveness hold is
released with it, and `write_decision` replaces no decision that can be read. -/
structure AnswersOnce (s : PermitState) (action : PermitAction) : Prop where
  hold : ∀ p h, (s.place p).hold? = some h → ((permitStep s action).place p).hold? = some h
  outcome : ∀ p outcome, (s.place p).outcome? = some outcome →
    ((permitStep s action).place p).outcome? = some outcome
  released : ∀ p h, (s.place p).hold? = some h → (s.place p).outcome? = none →
    ((permitStep s action).place p).outcome?.isSome →
      (permitStep s action).shared.held h.worker h.holdId = false
  kept : ∀ p d pc a, action = .turn p a → s.place p = .writing d pc → ∀ key d₀,
    s.shared.readDecision key = some d₀ →
      (permitStep s action).shared.readDecision key = some d₀

theorem hold_of_outcome (h : place.outcome? = some outcome) :
    ∃ hold, place.hold? = some hold := by
  match place, h with
  | .clearing hold _ _, _ => exact ⟨hold, rfl⟩
  | .returned hold _, _ => exact ⟨hold, rfl⟩

theorem open_of_no_outcome {h : Hold} (hhold : place.hold? = some h)
    (hnone : place.outcome? = none) : ∃ acked pc, place = .holding h acked pc := by
  match place, hhold, hnone with
  | .holding hold acked pc, hhold, _ =>
    cases hhold
    exact ⟨acked, pc, rfl⟩

theorem answersOnce {s : PermitState} (hs : SoundPermits s) (action : PermitAction)
    (hheeds : heeds s action = true) : AnswersOnce s action where
  hold p h hhold := by
    rcases permitStep_place action hhold with ⟨_, hsame⟩ | ⟨a, _, hturn⟩
    · rw [hsame]
      exact hhold
    · rw [hturn, Threads.State.turn_place_self]
      exact permitTurn_hold hhold
  outcome p outcome houtcome := by
    obtain ⟨h, hhold⟩ := hold_of_outcome houtcome
    rcases permitStep_place action hhold with ⟨_, hsame⟩ | ⟨a, _, hturn⟩
    · rw [hsame]
      exact houtcome
    · rw [hturn, Threads.State.turn_place_self]
      exact permitTurn_outcome houtcome
  released p h hhold hnone hsome := by
    obtain ⟨acked, pc, hplace⟩ := open_of_no_outcome hhold hnone
    rcases permitStep_place action hhold with ⟨_, hsame⟩ | ⟨a, _, hturn⟩
    · rw [hsame, hnone] at hsome
      cases hsome
    · rw [hturn, Threads.State.turn_place_self, hplace] at hsome
      rw [hturn, Threads.State.turn_shared, hplace]
      exact (holdTurn_outcome acked pc).2 hsome
  kept p d pc a haction hplace key d₀ hread := by
    subst haction
    have hat := hs.ok p
    rw [hplace] at hat
    show (permitTurn a p s.shared (s.place p)).1.readDecision key = some d₀
    rw [hplace]
    refine writeTurn_readable hat (fun hpc => ?_) hread
    rw [heeds, hplace] at hheeds
    rcases hpc with rfl | rfl <;> exact Option.isNone_iff_eq_none.mp hheeds

/-- The hold is open, and its request has been written. -/
def OpenAt (s : PermitState) (p : ℕ) (h : Hold) : Prop :=
  ∃ acked pc, s.place p = .holding h acked pc ∧ pc ≠ .writeRequest

theorem published_of_openAt {s : PermitState} {p : ℕ} {h : Hold} (hs : SoundPermits s)
    (hopen : OpenAt s p h) : Published s.shared h.key := by
  obtain ⟨acked, pc, hplace, hpc⟩ := hopen
  have hat := hs.ok p
  rw [hplace] at hat
  cases pc with
  | writeRequest => exact absurd rfl hpc
  | readDecision => exact hat.2
  | readAck => exact hat.2
  | checkDeadline => exact hat.2
  | readAgain => exact hat.2
  | sleep => exact hat.2

/-- **An allow is of the first decision**: it is for the hold's own key, it allows, and it names an
allow option that was offered, or none. -/
def AllowsFirst (dir : PermissionDir) (h : Hold) (outcome : HoldOutcome) : Prop :=
  ∀ chosen, outcome.response h.options = .selected chosen →
    ∃ d, dir.firstReadable h.key = some d ∧ d.key = h.key ∧ d.allow = true ∧
      ((d.optionId = some chosen ∧ chosen ∈ offered h.options) ∨
        (d.optionId.filter (· ≠ "") = none ∧ selectAllowOption h.options = some chosen))

theorem allowsFirst_of_byFirst {h : Hold}
    (hfirst : ByFirst dir h outcome) : AllowsFirst dir h outcome := by
  intro chosen hchosen
  cases outcome with
  | decided d =>
    obtain ⟨hread, hkey⟩ := hfirst d rfl
    obtain ⟨hallow, hoption⟩ := outcomeFromDecision_selected hchosen
    exact ⟨d, hread, hkey, hallow, hoption⟩
  | controllerTimeout => cases hchosen
  | userTimeout => cases hchosen
  | cancelled => cases hchosen
  | ipcError => cases hchosen

/-- **What a run of inline permissions promises.** -/
structure InlinePermissions (actions : List PermitAction) : Prop where
  /-- Every step keeps the outcomes, and the decisions that can be read. -/
  once : Machine.Meets permitStep AnswersOnce PermitState.start actions
  /-- Every outcome is that of the first decision. -/
  first : ∀ before after, actions = before ++ after → ∀ p h outcome,
    ((Machine.run permitStep PermitState.start before).place p).hold? = some h →
    ((Machine.run permitStep PermitState.start before).place p).outcome? = some outcome →
      AllowsFirst (Machine.run permitStep PermitState.start before).shared h outcome
  /-- The request of an open hold without an answer is listed: `list_requests` reads the names, the
  request and the decision at three moments of the run. -/
  listed : ∀ xs ys zs after, actions = xs ++ ys ++ zs ++ after → ∀ p h,
    let names := Machine.run permitStep PermitState.start xs
    let request := Machine.run permitStep names ys
    let decision := Machine.run permitStep request zs
    OpenAt names p h → OpenAt request p h → decision.shared.readDecision h.key = none →
      listsRequest names.shared request.shared decision.shared h.key = true
  /-- A hold returns within nine of its turns past the deadline, whatever else happens. -/
  returns : ∀ more p h,
    ((Machine.run permitStep PermitState.start actions).place p).hold? = some h →
    (∀ a, .turn p a ∈ more → a.ok = true) → 9 ≤ more.countP (·.isTurnOf p) →
      ∃ outcome, (Machine.run permitStep PermitState.start (actions ++ more)).place p =
        .returned h outcome

theorem rank_le_nine {p : ℕ} (hat : At dir p place) :
    rank place ≤ 9 := by
  match place, hat with
  | .holding h acked pc, _ => cases pc <;> simp [rank]
  | .clearing h outcome left, hat =>
    have hlength : left.length ≤ 3 := hat.2.1.length_le
    show left.length + 1 ≤ 9
    omega
  | .idle, _ => exact Nat.zero_le 9
  | .returned _ _, _ => exact Nat.zero_le 9
  | .writing _ _, _ => exact Nat.zero_le 9
  | .sweeping _, _ => exact Nat.zero_le 9

/-- **A permission is answered by its first decision**, in every run in which each request's record
can be read, no sweep removes the request of an open hold or a decision that it could read, and no
removal of `write_decision` meets a decision that can be read. -/
theorem inline_permission (actions : List PermitAction)
    (hheeds : Machine.Meets permitStep (fun s a => heeds s a = true) PermitState.start actions) :
    InlinePermissions actions where
  once := Machine.meets_of_invariant
    (fun _ a h ha => ⟨permitStep_keeps a h ha, answersOnce h a ha⟩) soundPermits_start hheeds
  first before after heq p h outcome hhold houtcome := by
    rw [heq, Machine.meets_append] at hheeds
    have hat := (holds_of_heeds soundPermits_start hheeds.1).ok p
    generalize (Machine.run permitStep PermitState.start before).place p = place at *
    match place, hat, hhold, houtcome with
    | .clearing hold o left, hat, hhold, houtcome =>
      cases hhold
      cases houtcome
      exact allowsFirst_of_byFirst hat.2.2
    | .returned hold o, hat, hhold, houtcome =>
      cases hhold
      cases houtcome
      exact allowsFirst_of_byFirst hat
  listed xs ys zs after heq p h := by
    intro names request decision hnames hrequest hnone
    rw [heq, Machine.meets_append, Machine.meets_append, Machine.meets_append] at hheeds
    obtain ⟨⟨⟨hxs, hys⟩, _⟩, _⟩ := hheeds
    have hsnames : SoundPermits names := holds_of_heeds soundPermits_start hxs
    have hsrequest : SoundPermits request := holds_of_heeds hsnames hys
    have hlisted := published_of_openAt hsnames hnames
    have hread := published_of_openAt hsrequest hrequest
    unfold listsRequest
    rw [hnone, show ((request.shared.request h.key).any (·.content)) = true from hread]
    have hsome : (names.shared.request h.key).isSome = true := by
      unfold Published at hlisted
      cases hfile : names.shared.request h.key with
      | none =>
        rw [hfile] at hlisted
        cases hlisted
      | some file => rfl
    rw [hsome]
    rfl
  returns more p h hhold hok hcount := by
    rw [Machine.run_append]
    obtain ⟨hsame, hrank⟩ := rank_run more hhold hok
    have hbound := rank_le_nine ((holds_of_heeds soundPermits_start hheeds).ok p)
    exact returned_of_rank hsame (by omega)

/-! ### Runs with and without an answer -/

/-- A worker's request to run a tool. -/
def toolRequest : Hold where
  worker := 1
  key := "k1"
  holdId := "tool"
  options := [⟨some "allow_once", some "once"⟩, ⟨some "reject_once", some "no"⟩]
  small := true

/-- Two decisions for its key. -/
def allowOnce : Decision := ⟨"k1", true, some "once"⟩
def deny : Decision := ⟨"k1", false, none⟩

/-- A turn at a time of the wall clock. -/
def PermitAction.at_ (p : ℕ) (now : ℚ) (ok : Bool) : PermitAction := .turn p ⟨now, ok, false⟩

/-- Two orchestrators answer one request. -/
def answeredRun : List PermitAction :=
  [.ask 0 toolRequest, .at_ 0 0 true, .decide 1 allowOnce, .decide 2 deny, .at_ 1 1 true,
    .at_ 2 1 true, .at_ 1 1 true, .at_ 2 1 true, .at_ 1 1 true, .at_ 2 1 true, .at_ 0 2 true]

theorem inline_permission_answered :
    InlinePermissions answeredRun ∧
      ((Machine.run permitStep PermitState.start answeredRun).place 0).outcome? =
        some (.decided allowOnce) :=
  ⟨inline_permission answeredRun (by decide +kernel), by decide +kernel⟩

/-- A hold is acknowledged and waits for the user.  More than an hour later another worker's hold
sweeps the directory. -/
def sweptRun : List PermitAction :=
  [.ask 0 toolRequest, .at_ 0 0 true, .ack "k1" 1, .at_ 0 2 true, .at_ 0 2 true, .at_ 0 2 false,
    .look 1 (.request "k1") 4000, .at_ 1 4000 true]

/-- Two orchestrators find a malformed file.  The one removes it and writes its decision; the other
removes that one. -/
def racedRun : List PermitAction :=
  [.ask 0 toolRequest, .at_ 0 0 true, .litter "k1" (.regular 0 none) 1,
    .decide 1 allowOnce, .at_ 1 2 true, .at_ 1 2 true,
    .decide 2 deny, .at_ 2 2 true, .at_ 2 2 true,
    .at_ 1 3 true, .at_ 1 3 true, .at_ 1 3 true,
    .at_ 2 4 true, .at_ 2 4 true, .at_ 2 4 true]

/-- **An open request is swept**, and a later decision replaces one that could be read. -/
theorem open_request_swept : ¬ InlinePermissions sweptRun ∧ ¬ InlinePermissions racedRun := by
  refine ⟨fun h => ?_, fun h => ?_⟩
  · have hlisted := h.listed sweptRun [] [] [] (by simp) 0 toolRequest
      ⟨true, .sleep, by decide +kernel, nofun⟩ ⟨true, .sleep, by decide +kernel, nofun⟩
      (by decide +kernel)
    revert hlisted
    decide +kernel
  · have hmeets := h.once
    rw [show racedRun = racedRun.take 12 ++ racedRun.drop 12 from rfl, Machine.meets_append] at hmeets
    have hkept := hmeets.2.1.kept 2 deny .unlinkMalformed ⟨4, true, false⟩ rfl (by decide +kernel)
      "k1" allowOnce (by decide +kernel)
    revert hkept
    decide +kernel

end GoalFlight.Acp
