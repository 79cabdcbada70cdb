import GoalFlight.Acp.Pidfiles

/-!
# ACP: proven ghosts

A sweep of the pidfiles is to kill proven ghosts only, and to forget proven dead groups only.
`ghost_cleanup_iff` says in which files it does: the sweep skips the probe of the controller in
files of bash-tail launchers, and it lets go of entries without a look at their worker, or after a
look that left the question open.
-/

namespace GoalFlight.Acp

/-! ### What is to be proven -/

/-- **The recorded worker is proven gone**: by its identity, by its pid, or by the end of the group
that was killed with it. -/
def Handled.workerGone (h : Handled) : Prop :=
  (∃ reason, Probe.identity reason ∈ h.probes ∧ reason.provesGone = true) ∨
    Probe.liveness (some false) ∈ h.probes ∨
    ∃ pgid, h.signal = some (.group pgid true) ∧ Probe.group (some false) ∈ h.probes

/-- **Proven**: the worker and its group are gone. -/
def Handled.Proven (h : Handled) : Prop :=
  h.workerGone ∧ Probe.group (some false) ∈ h.probes

/-- The two processes are known to be different ones. -/
def differentGeneration (pid : ℤ) (recorded current : Identity) : Prop :=
  let reason := (compareFineProcessIdentities pid recorded (some current)).2
  reason = .identityPidMismatch ∨ reason = .pidReusedStartToken ∨ reason = .pidReusedLstart

/-- The answer for the controller that the sweep of a file goes by. -/
def Pidfile.consulted (file : Pidfile) (controllerProbe : ℤ → Option String) : Option Identity :=
  if file.bashTail then none
  else
    (file.owner.getD none).bind fun pid => (given (controllerProbe pid)).map (startIdentity pid)

section

variable (platform : Platform) (own : List ℤ) (controllerProbe : ℤ → Option String)
variable (file : Pidfile) (e : Entry × Answers)

/-- **A kill is warranted.** -/
structure Warranted : Prop where
  notDetached : e.1.detached = false
  notBashTail : e.1.isBashTail = false
  notOwn : ∀ pid, e.1.pid = some pid → pid ∉ own
  controller : ∃ pid current, file.owner = some (some pid) ∧
    file.consulted controllerProbe = some current ∧
    ∀ recorded ∈ file.controllers, differentGeneration pid recorded current
  matched : ∃ rest, (handleIn platform own file e).probes =
    Probe.identity .live :: Probe.identity .live :: rest

/-- **The sweep of a file is right**: what it kills is a ghost, and it forgets what is gone. -/
structure SweepsRight : Prop where
  kills : ∀ e ∈ reached platform own controllerProbe file,
    (handleIn platform own file e).signal.isSome = true →
      Warranted platform own controllerProbe file e
  forgets : unlinked platform own controllerProbe file = true →
    ∀ e ∈ file.entries, (handleIn platform own file e).Proven

/-! ### The entries at issue -/

/-- An entry that is not to be killed for want of a live owner. -/
def isProtected : Bool :=
  (file.bashTail && e.1.isBashTail) || e.1.detached || (file.owner.getD none) = none

/-- `ps` has no answer, so that the protection of the entry goes by its pid. -/
def fallsBack : Bool :=
  ((file.bashTail && e.1.isBashTail) || (file.owner.getD none) = none) && !e.2.psMeta

/-- The worker of the entry matches twice. -/
def MatchedTwice (pid : ℤ) : Prop :=
  ∃ recorded current, e.1.workerIdentity = some recorded ∧ e.2.identity = some current ∧
    (compareFineProcessIdentities pid recorded (some current)).1 = true ∧
    (compareFineProcessIdentities pid current e.2.identityAgain).1 = true

/-- The group of the entry is proven gone. -/
def GroupGone (pid : ℤ) : Prop := 1 < e.1.pgid.getD pid ∧ e.2.group = some false

/-- Only the worker itself is signalled. -/
def killsPidOnly (pid : ℤ) : Bool := e.1.isBashTail && e.1.pgid.getD pid ≠ pid

/-- **The entry is marked** for a signal. -/
def Marked : Prop :=
  ∃ pid, e.1.pid = some pid ∧ own.contains pid = false ∧ isProtected file e = false ∧
    isTarget pid = true ∧
    match platform with
    | .windows => e.2.liveness = some true ∧ e.1.creationTime = true ∧ e.2.creationMatches = true
    | .posix => MatchedTwice e pid ∧ (killsPidOnly e pid = true ∨ isTarget (e.1.pgid.getD pid) = true)

/-- The circumstances in which a marked entry is a proven ghost. -/
structure ProvenGhost : Prop where
  posix : platform = .posix
  notBashTailFile : file.bashTail = false
  notBashTail : e.1.isBashTail = false
  tokens : ∀ recorded ∈ file.controllers, (given recorded.startToken).isSome = true

/-- A comparison that leaves open whether the recorded worker is there. -/
def Reason.open_ (reason : Reason) : Prop :=
  reason = .identityIndeterminate ∨ reason = .identityPidMismatch

/-- The probes of a controller's entry leave open whether its worker is there: a comparison does, or
the worker was killed without its group. -/
def LeftOpen (pid : ℤ) : Prop :=
  ∃ recorded, e.1.workerIdentity = some recorded ∧
    ((compareFineProcessIdentities pid recorded e.2.identity).2.open_ ∨
      ∃ current, e.2.identity = some current ∧
        (compareFineProcessIdentities pid recorded (some current)).1 = true ∧
        ((compareFineProcessIdentities pid current e.2.identityAgain).2.open_ ∨
          ((compareFineProcessIdentities pid current e.2.identityAgain).1 = true ∧
            killsPidOnly e pid = true ∧ isTarget pid = true ∧ e.2.delivered = true)))

/-- **The entry is let go**, and its worker and group are not proven gone: it has no pid, or one of
the sweep's own workers; on Windows its group is not looked for, and a kill is taken for a success;
elsewhere its group is gone, and the comparison leaves the question open, or the worker was killed
without its group. -/
def Overlooked : Prop :=
  match e.1.pid with
  | none => True
  | some pid =>
    own.contains pid = true ∨
      if isProtected file e then
        platform = .posix ∧ GroupGone e pid ∧ fallsBack file e = false ∧
          ∃ recorded, e.1.workerIdentity = some recorded ∧
            (compareProcessIdentities pid recorded e.2.identity).2 = .identityPidMismatch
      else
        match platform with
        | .windows => e.2.liveness = some false ∨
            (e.2.liveness = some true ∧ e.1.creationTime = true)
        | .posix => GroupGone e pid ∧ LeftOpen e pid

end

/-! ### One entry -/

section Entry

variable {platform : Platform} {own : List ℤ} {file : Pidfile} {e : Entry × Answers}
variable {pid pgid : ℤ} {a : Answers} {probes : List Probe} {signal : Option Signal}

/-- **The group at the end of an entry.** -/
theorem letGroup_posix (hprobes : Probe.group (some false) ∉ probes) :
    (1 < pgid ∧ a.group = some false ∧
        letGroup .posix pgid a probes signal = ⟨.lets, probes ++ [.group (some false)], signal⟩) ∨
      (¬ (1 < pgid ∧ a.group = some false) ∧
        (letGroup .posix pgid a probes signal).fate = .keeps ∧
        Probe.group (some false) ∉ (letGroup .posix pgid a probes signal).probes) := by
  unfold letGroup
  by_cases hpgid : pgid ≤ 1
  · rw [if_pos hpgid]
    exact .inr ⟨fun h => absurd h.1 (Int.not_lt.mpr hpgid), rfl, hprobes⟩
  · rw [if_neg hpgid]
    by_cases hgroup : a.group = some false
    · exact .inl ⟨Int.not_le.mp hpgid, hgroup, by simp [hgroup]⟩
    · refine .inr ⟨fun h => hgroup h.2, by simp [hgroup], ?_⟩
      simp only
      intro hmem
      rcases List.mem_append.mp hmem with hmem | hmem
      · exact hprobes hmem
      · rw [List.mem_singleton] at hmem
        exact hgroup (Probe.group.inj hmem).symm

theorem compare_unmatched {expected : Identity} {current : Option Identity}
    (h : (compareProcessIdentities pid expected current).1 = false) :
    (compareProcessIdentities pid expected current).2.provesGone = true ∨
      (compareProcessIdentities pid expected current).2 = .identityPidMismatch := by
  unfold compareProcessIdentities at *
  cases current with
  | none => exact .inl rfl
  | some current =>
    simp only at h ⊢
    split
    · rename_i herror
      rw [if_pos herror] at h
      cases h
    · rename_i herror
      rw [if_neg herror] at h
      split
      · exact .inr rfl
      · rename_i hpid
        rw [if_neg hpid] at h
        split
        · exact .inl rfl
        · rename_i htoken
          rw [if_neg htoken] at h
          split
          · exact .inl rfl
          · rename_i hlstart
            rw [if_neg hlstart] at h
            split at h <;> cases h

/-- A fine comparison that does not match proves the process gone, or leaves the question open. -/
theorem compareFine_unmatched {expected : Identity} {current : Option Identity}
    (h : (compareFineProcessIdentities pid expected current).1 = false) :
    (compareFineProcessIdentities pid expected current).2.provesGone = true ∨
      (compareFineProcessIdentities pid expected current).2.open_ := by
  unfold compareFineProcessIdentities at *
  cases current with
  | none => exact .inl rfl
  | some current =>
    simp only at h ⊢
    split
    · exact .inr (.inl rfl)
    · rename_i herror
      rw [if_neg herror] at h
      split
      · exact .inr (.inl rfl)
      · rename_i htokens
        rw [if_neg htokens] at h
        rcases compare_unmatched h with hgone | hpid
        · exact .inl hgone
        · exact .inr (.inr hpid)

theorem Reason.not_open_of_provesGone {reason : Reason} (h : reason.provesGone = true) :
    ¬ reason.open_ := by
  rintro (rfl | rfl) <;> exact Bool.false_ne_true h

theorem Reason.not_open_live : ¬ Reason.live.open_ := by
  rintro (h | h) <;> cases h

/-- **What an entry comes to**: it is let go proven, or overlooked, or the file is kept. -/
inductive Sorted (h : Handled) (overlooked : Prop) : Prop
  | proven : h.fate = .lets → h.Proven → ¬ overlooked → Sorted h overlooked
  | overlooked : h.fate = .lets → ¬ h.Proven → overlooked → Sorted h overlooked
  | kept : h.fate ≠ .lets → Probe.group (some false) ∉ h.probes → ¬ overlooked →
      Sorted h overlooked

section

variable (hprobes : Probe.group (some false) ∉ probes)
include hprobes

theorem Sorted.of_keeps {overlooked : Prop} (hnot : ¬ overlooked) :
    Sorted ⟨.keeps, probes, signal⟩ overlooked :=
  .kept (fun h => Fate.noConfusion h) hprobes hnot

theorem Sorted.of_lets {overlooked : Prop} (hover : overlooked) :
    Sorted ⟨.lets, probes, signal⟩ overlooked :=
  .overlooked rfl (fun h => hprobes h.2) hover

/-- An entry whose group is looked for: it is overlooked where its worker is not proven gone. -/
theorem Sorted.of_letGroup {leftOpen : Prop}
    (hopen : leftOpen ↔ ¬ Handled.workerGone ⟨.lets, probes ++ [.group (some false)], signal⟩) :
    Sorted (letGroup .posix pgid a probes signal)
      ((1 < pgid ∧ a.group = some false) ∧ leftOpen) := by
  rcases letGroup_posix (a := a) hprobes with
    ⟨hpgid, hgroup, heq⟩ | ⟨hnot, hkeeps, hnone⟩
  · rw [heq]
    have hmem : Probe.group (some false) ∈ probes ++ [Probe.group (some false)] := by simp
    by_cases hover : leftOpen
    · exact .overlooked rfl (fun h => hopen.mp hover h.1) ⟨⟨hpgid, hgroup⟩, hover⟩
    · refine .proven rfl ⟨?_, hmem⟩ fun h => hover h.2
      exact not_not.mp fun hgone => hover (hopen.mpr hgone)
  · exact .kept (by rw [hkeeps]; exact fun h => Fate.noConfusion h) hnone fun h => hnot h.1

end

theorem workerGone_identity_iff {reason : Reason} :
    Handled.workerGone ⟨.lets, [.identity reason] ++ [.group (some false)], none⟩ ↔
      reason.provesGone = true := by
  unfold Handled.workerGone
  simp

theorem workerGone_liveness {answers : List Probe} (h : Probe.liveness (some false) ∈ answers) :
    Handled.workerGone ⟨.lets, answers ++ [.group (some false)], signal⟩ :=
  .inr (.inl (List.mem_append_left _ h))

theorem compare_matched {expected : Identity} {current : Option Identity}
    (h : (compareProcessIdentities pid expected current).1 = true) :
    (compareProcessIdentities pid expected current).2 ≠ .identityPidMismatch := by
  intro hreason
  unfold compareProcessIdentities at h hreason
  cases current with
  | none => cases h
  | some current =>
    simp only at h hreason
    split at h
    · rename_i herror
      rw [if_pos herror] at hreason
      cases hreason
    · rename_i herror
      rw [if_neg herror] at hreason
      split at h
      · cases h
      · rename_i hpid
        rw [if_neg hpid] at hreason
        split at h
        · cases h
        · rename_i htoken
          rw [if_neg htoken] at hreason
          split at h
          · cases h
          · rename_i hlstart
            rw [if_neg hlstart] at hreason
            split at hreason <;> cases hreason

/-- **A protected entry** that is not found live: its worker is proven gone, if it is not of
another pid and nothing else was asked. -/
theorem protectedLive_posix {flag : Bool} {entry : Entry} :
    Probe.group (some false) ∉ (protectedLive .posix flag pid entry a).2 ∧
      ((protectedLive .posix flag pid entry a).1 = true →
        ¬ ((flag && !a.psMeta) = false ∧ ∃ recorded, entry.workerIdentity = some recorded ∧
          (compareProcessIdentities pid recorded a.identity).2 = .identityPidMismatch)) ∧
      ((protectedLive .posix flag pid entry a).1 = false →
        (((flag && !a.psMeta) = false ∧ ∃ recorded, entry.workerIdentity = some recorded ∧
            (compareProcessIdentities pid recorded a.identity).2 = .identityPidMismatch) ↔
          ¬ Handled.workerGone
            ⟨.lets, (protectedLive .posix flag pid entry a).2 ++ [.group (some false)], none⟩)) := by
  have hliveness : ∀ answer, maybeAlive answer = false → answer = some false := by
    intro answer h
    simpa [maybeAlive] using h
  unfold protectedLive
  simp only
  cases hfalls : (flag && !a.psMeta) with
  | true =>
    simp only [if_true]
    refine ⟨?_, fun _ h => absurd h.1 (by simp), fun h => ?_⟩
    · cases entry.workerIdentity <;> simp
    · rw [hliveness _ h]
      refine iff_of_false (fun h => absurd h.1 (by simp)) (not_not.mpr (workerGone_liveness ?_))
      exact List.mem_append_right _ List.mem_cons_self
  | false =>
    simp only [Bool.false_eq_true, if_false, true_and]
    cases hrecorded : entry.workerIdentity with
    | none =>
      refine ⟨by simp, fun _ h => ?_, fun h => ?_⟩
      · obtain ⟨recorded, hsome, -⟩ := h
        cases hsome
      · rw [hliveness _ h]
        refine iff_of_false ?_ (not_not.mpr (workerGone_liveness List.mem_cons_self))
        rintro ⟨recorded, hsome, -⟩
        cases hsome
    | some recorded =>
      refine ⟨by simp, fun hmatched h => ?_, fun h => ?_⟩
      · obtain ⟨recorded', hsome, hreason⟩ := h
        cases hsome
        exact compare_matched hmatched hreason
      · rw [workerGone_identity_iff]
        constructor
        · rintro ⟨recorded', hsome, hreason⟩
          cases hsome
          rw [hreason]
          exact Bool.false_ne_true
        · intro hnot
          exact ⟨recorded, rfl, (compare_unmatched h).resolve_left hnot⟩

theorem protected_sorted (hpid : e.1.pid = some pid) (hown : own.contains pid = false)
    (hprotected : isProtected file e = true) :
    Sorted (handleIn platform own file e) (Overlooked platform own file e) := by
  have hhandled : handleIn platform own file e = handleProtected platform
      ((file.bashTail && e.1.isBashTail) || (file.owner.getD none) = none) pid e.1 e.2 := by
    unfold isProtected at hprotected
    unfold handleIn handleEntry
    simp only [hpid, hown, Bool.false_eq_true, if_false]
    rw [if_pos hprotected]
  have hover : Overlooked platform own file e ↔ platform = .posix ∧ GroupGone e pid ∧
      fallsBack file e = false ∧ ∃ recorded, e.1.workerIdentity = some recorded ∧
        (compareProcessIdentities pid recorded e.2.identity).2 = .identityPidMismatch := by
    unfold Overlooked
    simp only [hpid, hown, hprotected, Bool.false_eq_true, false_or, if_true]
  rw [hhandled]
  cases platform with
  | windows =>
    have hnot : ¬ Overlooked .windows own file e := by
      rw [hover]
      exact fun h => Platform.noConfusion h.1
    unfold handleProtected protectedLive
    simp only
    split
    · exact .of_keeps (by simp) hnot
    · unfold letGroup
      split
      · exact .of_keeps (by simp) hnot
      · exact .kept (fun h => Fate.noConfusion h) (by simp) hnot
  | posix =>
    obtain ⟨hprobes, hlive, hdead⟩ := protectedLive_posix (a := e.2)
    unfold handleProtected
    simp only
    split
    · rename_i hmatched
      refine .of_keeps hprobes fun h => hlive hmatched ?_
      exact (hover.mp h).2.2
    · rename_i hmatched
      have hsorted : Sorted (letGroup .posix (e.1.pgid.getD pid) e.2 _ _) _ :=
        Sorted.of_letGroup hprobes (hdead (Bool.eq_false_iff.mpr hmatched))
      have hsame : Overlooked .posix own file e ↔
          (1 < e.1.pgid.getD pid ∧ e.2.group = some false) ∧ _ :=
        hover.trans (and_iff_right rfl)
      rw [hsame]
      exact hsorted

section

variable {recorded current : Identity} (hrecorded : e.1.workerIdentity = some recorded)
  (hcurrent : e.2.identity = some current)
  (hfirst : (compareFineProcessIdentities pid recorded (some current)).1 = true)
  (hagain : (compareFineProcessIdentities pid current e.2.identityAgain).1 = true)
include hrecorded hcurrent hfirst hagain

theorem leftOpen_of_matched :
    LeftOpen e pid ↔ killsPidOnly e pid = true ∧ isTarget pid = true ∧ e.2.delivered = true := by
  constructor
  · rintro ⟨recorded', hsome, hopen⟩
    cases hrecorded.symm.trans hsome
    rcases hopen with hopen | ⟨current', hsome', -, hopen | hkill⟩
    · rw [hcurrent, compareFineProcessIdentities_matched hfirst] at hopen
      exact absurd hopen Reason.not_open_live
    · cases hcurrent.symm.trans hsome'
      rw [compareFineProcessIdentities_matched hagain] at hopen
      exact absurd hopen Reason.not_open_live
    · exact hkill.2
  · exact fun h => ⟨recorded, hrecorded, .inr ⟨current, hcurrent, hfirst, .inr ⟨hagain, h⟩⟩⟩

/-- **A worker that matches twice** is killed. -/
theorem matched_sorted :
    Sorted (handleOwned pid e.1 e.2) (GroupGone e pid ∧ LeftOpen e pid) := by
  have hleft := leftOpen_of_matched hrecorded hcurrent hfirst hagain
  have hfirstLive := compareFineProcessIdentities_matched hfirst
  have hagainLive := compareFineProcessIdentities_matched hagain
  unfold handleOwned
  simp only [hrecorded, hcurrent, hfirst, hagain, hfirstLive, hagainLive, if_true]
  cases hdelivered : (killWorker pid e.1 e.2).any Signal.delivered with
  | true =>
    simp only [if_true]
    refine Sorted.of_letGroup (by simp) ?_
    rw [hleft]
    unfold killWorker at hdelivered ⊢
    unfold killsPidOnly
    by_cases honly : (e.1.isBashTail && decide (e.1.pgid.getD pid ≠ pid)) = true
    · -- the worker is killed on its own
      rw [if_pos honly] at hdelivered ⊢
      split at hdelivered
      · rename_i htarget
        rw [if_pos htarget]
        refine iff_of_true ⟨honly, htarget, hdelivered⟩ ?_
        unfold Handled.workerGone
        simp [Reason.provesGone]
      · cases hdelivered
    · -- and here with its group
      rw [if_neg honly] at hdelivered ⊢
      split at hdelivered
      · rename_i htarget
        rw [if_pos htarget]
        have hyes : e.2.delivered = true := hdelivered
        refine iff_of_false (fun h => honly h.1)
          (not_not.mpr (.inr (.inr ⟨e.1.pgid.getD pid, ?_, by simp⟩)))
        rw [hyes]
      · cases hdelivered
  | false =>
    have hnot : ¬ LeftOpen e pid := by
      rw [hleft]
      rintro ⟨honly, htarget, hyes⟩
      unfold killsPidOnly at honly
      unfold killWorker at hdelivered
      simp only at hdelivered
      rw [if_pos honly, if_pos htarget] at hdelivered
      rw [Option.any_some] at hdelivered
      exact absurd (hyes.symm.trans hdelivered) (by decide)
    simp only [Bool.false_eq_true, if_false]
    split
    · exact .of_keeps (by simp) fun h => hnot h.2
    · rename_i halive
      have hdead : e.2.livenessAgain = some false := by simpa [maybeAlive] using halive
      refine Sorted.of_letGroup (by simp) (iff_of_false hnot (not_not.mpr ?_))
      rw [hdead]
      exact workerGone_liveness (by simp)

end

/-- **An entry of a controller that is gone.** -/
theorem handleOwned_sorted :
    Sorted (handleOwned pid e.1 e.2) (GroupGone e pid ∧ LeftOpen e pid) := by
  cases hrecorded : e.1.workerIdentity with
  | none =>
    have hnot : ¬ LeftOpen e pid := by
      rintro ⟨recorded, hsome, -⟩
      cases hrecorded.symm.trans hsome
    unfold handleOwned
    simp only [hrecorded]
    split
    · exact .of_keeps (by simp) fun h => hnot h.2
    · rename_i halive
      have hdead : e.2.liveness = some false := by simpa [maybeAlive] using halive
      refine Sorted.of_letGroup (by simp) (iff_of_false hnot (not_not.mpr ?_))
      rw [hdead]
      exact workerGone_liveness List.mem_cons_self
  | some recorded =>
    cases hfirst : (compareFineProcessIdentities pid recorded e.2.identity).1 with
    | false =>
      have hleft : LeftOpen e pid ↔
          (compareFineProcessIdentities pid recorded e.2.identity).2.open_ := by
        constructor
        · rintro ⟨recorded', hsome, hopen⟩
          cases hrecorded.symm.trans hsome
          rcases hopen with hopen | ⟨current, hcurrent, hmatched, -⟩
          · exact hopen
          · rw [hcurrent, hmatched] at hfirst
            cases hfirst
        · exact fun h => ⟨recorded, hrecorded, .inl h⟩
      unfold handleOwned
      simp only [hrecorded, hfirst]
      refine Sorted.of_letGroup (by simp) ?_
      rw [hleft, workerGone_identity_iff]
      exact ⟨fun h hgone => Reason.not_open_of_provesGone hgone h,
        fun h => (compareFine_unmatched hfirst).resolve_left h⟩
    | true =>
      cases hcurrent : e.2.identity with
      | none =>
        rw [hcurrent] at hfirst
        cases hfirst
      | some current =>
        rw [hcurrent] at hfirst
        cases hagain : (compareFineProcessIdentities pid current e.2.identityAgain).1 with
        | true => exact matched_sorted hrecorded hcurrent hfirst hagain
        | false =>
          have hlive := compareFineProcessIdentities_matched hfirst
          have hleft : LeftOpen e pid ↔
              (compareFineProcessIdentities pid current e.2.identityAgain).2.open_ := by
            constructor
            · rintro ⟨recorded', hsome, hopen⟩
              cases hrecorded.symm.trans hsome
              rcases hopen with hopen | ⟨current', hsome', -, hopen | hkill⟩
              · rw [hcurrent, hlive] at hopen
                exact absurd hopen Reason.not_open_live
              · cases hcurrent.symm.trans hsome'
                exact hopen
              · cases hcurrent.symm.trans hsome'
                rw [hagain] at hkill
                cases hkill.1
            · exact fun h => ⟨recorded, hrecorded, .inr ⟨current, hcurrent, hfirst, .inl h⟩⟩
          unfold handleOwned
          simp only [hrecorded, hcurrent, hfirst, hagain, hlive, Bool.false_eq_true,
            if_false]
          refine Sorted.of_letGroup (by simp) ?_
          rw [hleft]
          have hgone : Handled.workerGone ⟨.lets,
              [Probe.identity .live,
                .identity (compareFineProcessIdentities pid current e.2.identityAgain).2] ++
                [.group (some false)], none⟩ ↔
              (compareFineProcessIdentities pid current
                e.2.identityAgain).2.provesGone = true := by
            unfold Handled.workerGone
            simp [Reason.provesGone]
          rw [hgone]
          exact ⟨fun h hgone => Reason.not_open_of_provesGone hgone h,
            fun h => (compareFine_unmatched hagain).resolve_left h⟩

theorem owned_sorted (hpid : e.1.pid = some pid) (hown : own.contains pid = false)
    (hprotected : isProtected file e = false) :
    Sorted (handleIn platform own file e) (Overlooked platform own file e) := by
  unfold Overlooked handleIn handleEntry
  simp only [hpid, hown, hprotected, Bool.false_eq_true, false_or, if_false]
  unfold isProtected at hprotected
  rw [if_neg (by rw [hprotected]; exact Bool.false_ne_true)]
  cases platform with
  | posix => exact handleOwned_sorted
  | windows =>
    unfold handleOwnedWindows
    simp only
    cases hliveness : e.2.liveness with
    | none => exact .of_keeps (by simp) (by simp)
    | some alive =>
      cases alive with
      | false => exact .of_lets (by simp) (.inl rfl)
      | true =>
        simp only
        cases hcreation : e.1.creationTime with
        | false => exact .of_keeps (by simp) (by simp)
        | true => exact .of_lets (by simp) (by simp)

/-- **Every entry** is let go proven, or overlooked, or keeps the file. -/
theorem entry_sorted (platform : Platform) (own : List ℤ) (file : Pidfile) (e : Entry × Answers) :
    Sorted (handleIn platform own file e) (Overlooked platform own file e) := by
  cases hpid : e.1.pid with
  | none =>
    have hhandled : handleIn platform own file e = ⟨.lets, [], none⟩ := by
      unfold handleIn handleEntry
      rw [hpid]
    rw [hhandled]
    refine .of_lets List.not_mem_nil ?_
    unfold Overlooked
    rw [hpid]
    trivial
  | some pid =>
    cases hown : own.contains pid with
    | true =>
      have hhandled : handleIn platform own file e = ⟨.lets, [], none⟩ := by
        unfold handleIn handleEntry
        simp only [hpid, hown, if_true]
      rw [hhandled]
      refine .of_lets List.not_mem_nil ?_
      unfold Overlooked
      simp only [hpid, hown, true_or]
    | false =>
      cases hprotected : isProtected file e with
      | true => exact protected_sorted hpid hown hprotected
      | false => exact owned_sorted hpid hown hprotected

/-! ### Kills -/

@[simp] theorem letGroup_signal : (letGroup platform pgid a probes signal).signal = signal := by
  unfold letGroup
  split
  · rfl
  · cases platform <;> rfl

theorem letGroup_probes : ∃ rest, (letGroup platform pgid a probes signal).probes = probes ++ rest := by
  unfold letGroup
  split
  · exact ⟨[], (List.append_nil _).symm⟩
  · cases platform with
    | windows => exact ⟨[], (List.append_nil _).symm⟩
    | posix => exact ⟨[.group a.group], rfl⟩

/-- **A worker that matches twice** is signalled, after the two probes. -/
theorem handleOwned_matched (h : MatchedTwice e pid) :
    (handleOwned pid e.1 e.2).signal = killWorker pid e.1 e.2 ∧
      ∃ rest, (handleOwned pid e.1 e.2).probes =
        Probe.identity .live :: Probe.identity .live :: rest := by
  obtain ⟨recorded, current, hrecorded, hcurrent, hfirst, hagain⟩ := h
  unfold handleOwned
  simp only [hrecorded, hcurrent, hfirst, hagain, compareFineProcessIdentities_matched hfirst,
    compareFineProcessIdentities_matched hagain, if_true]
  split
  · refine ⟨letGroup_signal, ?_⟩
    obtain ⟨rest, hrest⟩ := letGroup_probes
      (a := e.2)
    exact ⟨rest, hrest⟩
  · split
    · exact ⟨rfl, [.liveness e.2.livenessAgain], rfl⟩
    · refine ⟨letGroup_signal, ?_⟩
      obtain ⟨rest, hrest⟩ := letGroup_probes
        (a := e.2)
      exact ⟨.liveness e.2.livenessAgain :: rest, hrest⟩

theorem handleOwned_unmatched (h : ¬ MatchedTwice e pid) :
    (handleOwned pid e.1 e.2).signal = none := by
  unfold handleOwned
  simp only
  split
  · split
    · rfl
    · exact letGroup_signal
  · rename_i recorded hrecorded
    split
    · rename_i current hfirst hcurrent
      split
      · rename_i hagain
        rw [hcurrent] at hfirst
        exact absurd ⟨recorded, current, hrecorded, hcurrent, hfirst, hagain⟩ h
      · exact letGroup_signal
    · exact letGroup_signal

theorem killWorker_isSome : (killWorker pid e.1 e.2).isSome = true ↔
    isTarget pid = true ∧ (killsPidOnly e pid = true ∨ isTarget (e.1.pgid.getD pid) = true) := by
  unfold killWorker killsPidOnly
  simp only
  generalize (e.1.isBashTail && decide (e.1.pgid.getD pid ≠ pid)) = only
  cases only <;> cases isTarget pid <;> cases isTarget (e.1.pgid.getD pid) <;> simp

theorem handleProtected_signal {flag : Bool} {entry : Entry} :
    (handleProtected platform flag pid entry a).signal = none := by
  unfold handleProtected
  simp only
  split
  · rfl
  · exact letGroup_signal

/-- **A signal is sent** for the marked entries, and for no others. -/
theorem signal_iff_marked (platform : Platform) (own : List ℤ) (file : Pidfile)
    (e : Entry × Answers) :
    (handleIn platform own file e).signal.isSome = true ↔ Marked platform own file e := by
  unfold handleIn handleEntry Marked
  cases hpid : e.1.pid with
  | none => simp
  | some pid =>
    simp only [Option.some.injEq, exists_eq_left']
    cases hown : own.contains pid with
    | true => simp
    | false =>
      simp only [Bool.false_eq_true, if_false, true_and]
      cases hprotected : isProtected file e with
      | true =>
        unfold isProtected at hprotected
        rw [if_pos hprotected, handleProtected_signal]
        simp
      | false =>
        unfold isProtected at hprotected
        rw [if_neg (by rw [hprotected]; exact Bool.false_ne_true)]
        simp only [true_and]
        cases platform with
        | posix =>
          simp only
          by_cases hmatched : MatchedTwice e pid
          · rw [(handleOwned_matched hmatched).1, killWorker_isSome]
            simp [hmatched]
          · rw [handleOwned_unmatched hmatched]
            simp [hmatched]
        | windows =>
          unfold handleOwnedWindows
          simp only
          cases hliveness : e.2.liveness with
          | none => simp
          | some alive =>
            cases alive with
            | false => simp
            | true =>
              cases hcreation : e.1.creationTime with
              | false => simp
              | true =>
                cases htarget : isTarget pid <;> cases e.2.creationMatches <;> simp

/-! ### The warrant -/

variable {controllerProbe : ℤ → Option String}

/-- A controller that the sweep went on from is of another generation than every identity in the
file, where all of them can be compared. -/
theorem differentGeneration_of_unmatched {recorded : Identity} {startToken : String}
    (hrecorded : (given recorded.startToken).isSome = true)
    (hcurrent : (given (some startToken)).isSome = true)
    (h : (compareFineProcessIdentities pid recorded (some (startIdentity pid startToken))).1 =
      false) : differentGeneration pid recorded (startIdentity pid startToken) := by
  have htokens : ¬ (decide (given recorded.startToken = none) ||
      decide (given (startIdentity pid startToken).startToken = none)) = true := by
    rw [Bool.or_eq_true, decide_eq_true_eq, decide_eq_true_eq]
    rintro (hnone | hnone)
    · rw [hnone] at hrecorded
      cases hrecorded
    · rw [show given (some startToken) = none from hnone] at hcurrent
      cases hcurrent
  have hsame : compareFineProcessIdentities pid recorded (some (startIdentity pid startToken)) =
      compareProcessIdentities pid recorded (some (startIdentity pid startToken)) := by
    unfold compareFineProcessIdentities
    simp only
    rw [if_neg htokens]
    rfl
  unfold differentGeneration
  simp only
  rw [hsame] at h ⊢
  rcases compare_unmatched h with hgone | hpid
  · cases hreason : (compareProcessIdentities pid recorded (some (startIdentity pid startToken))).2 with
    | pidReusedStartToken => exact .inr (.inl rfl)
    | pidReusedLstart => exact .inr (.inr rfl)
    | identityPidMismatch => exact .inl rfl
    | identityIndeterminate =>
      rw [hreason] at hgone
      cases hgone
    | live =>
      rw [hreason] at hgone
      cases hgone
    | dead =>
      -- a probe that has found a process does not say that it is dead
      unfold compareProcessIdentities at hreason
      simp only at hreason
      repeat' split at hreason
      all_goals cases hreason
  · exact .inl hpid

theorem token_of_differentGeneration {recorded current : Identity}
    (h : differentGeneration pid recorded current) :
    (given recorded.startToken).isSome = true := by
  cases htoken : given recorded.startToken with
  | some token => rfl
  | none =>
    have hopen : (compareFineProcessIdentities pid recorded (some current)).2 =
        .identityIndeterminate := by
      unfold compareFineProcessIdentities
      simp [htoken]
    unfold differentGeneration at h
    rw [hopen] at h
    rcases h with h | h | h <;> cases h

theorem warranted_iff (he : e ∈ reached platform own controllerProbe file)
    (hmarked : Marked platform own file e) :
    Warranted platform own controllerProbe file e ↔ ProvenGhost platform file e := by
  have hproceeds : file.proceeds controllerProbe = true := by
    unfold reached at he
    split at he
    · assumption
    · cases he
  constructor
  · intro h
    obtain ⟨cpid, current, howner, hconsulted, hdifferent⟩ := h.controller
    refine ⟨?_, ?_, h.notBashTail, fun recorded hrecorded =>
      token_of_differentGeneration (hdifferent recorded hrecorded)⟩
    · -- on Windows the worker is looked for once
      obtain ⟨rest, hprobes⟩ := h.matched
      cases platform with
      | posix => rfl
      | windows =>
        obtain ⟨pid, hpid, hown, hprotected, -, hlive, hcreation, -⟩ := hmarked
        unfold isProtected at hprotected
        unfold handleIn handleEntry at hprobes
        simp only [hpid, hown, Bool.false_eq_true, if_false] at hprobes
        rw [if_neg (by rw [hprotected]; exact Bool.false_ne_true)] at hprobes
        unfold handleOwnedWindows at hprobes
        simp [hlive, hcreation] at hprobes
    · cases hbash : file.bashTail with
      | false => rfl
      | true =>
        unfold Pidfile.consulted at hconsulted
        rw [if_pos hbash] at hconsulted
        cases hconsulted
  · intro h
    obtain ⟨pid, hpid, hown, hprotected, htarget, hkind⟩ := hmarked
    have hplatform := h.posix
    subst hplatform
    obtain ⟨hmatched, hgroup⟩ := hkind
    have hparts := hprotected
    unfold isProtected at hparts
    rw [Bool.or_eq_false_iff, Bool.or_eq_false_iff] at hparts
    obtain ⟨⟨-, hdetached⟩, howned⟩ := hparts
    have howned : file.owner.getD none ≠ none := by simpa using howned
    refine ⟨hdetached, h.notBashTail, fun pid' hpid' => ?_, ?_, ?_⟩
    · cases hpid.symm.trans hpid'
      intro hmem
      rw [List.contains_iff_mem.mpr hmem] at hown
      cases hown
    · cases howner : file.owner with
      | none =>
        rw [howner] at howned
        exact absurd rfl howned
      | some owner =>
        cases owner with
        | none =>
          rw [howner] at howned
          exact absurd rfl howned
        | some cpid =>
          unfold Pidfile.proceeds at hproceeds
          simp only [howner, h.notBashTailFile, Bool.false_or, Bool.and_eq_true] at hproceeds
          have hgone := hproceeds.2
          unfold controllerGone at hgone
          rw [Bool.and_eq_true] at hgone
          obtain ⟨token, htoken, hnone⟩ := Option.any_eq_true _ _ |>.mp hgone.2
          have hprobe : controllerProbe cpid = some token ∧ token ≠ "" := by
            unfold given at htoken
            simpa using Option.filter_eq_some_iff.mp htoken
          refine ⟨cpid, startIdentity cpid token, rfl, ?_, fun recorded hrecorded => ?_⟩
          · unfold Pidfile.consulted
            rw [h.notBashTailFile, if_neg Bool.false_ne_true, howner]
            show ((given (controllerProbe cpid)).map (startIdentity cpid)) = _
            rw [htoken]
            rfl
          · refine differentGeneration_of_unmatched (h.tokens recorded hrecorded) ?_ ?_
            · rw [← hprobe.1, htoken]
              rfl
            · simp only [Bool.not_eq_true', List.any_eq_false] at hnone
              exact Bool.eq_false_iff.mpr (hnone recorded hrecorded)
    · have hhandled : handleIn .posix own file e = handleOwned pid e.1 e.2 := by
        unfold isProtected at hprotected
        unfold handleIn handleEntry
        simp only [hpid, hown, Bool.false_eq_true, if_false]
        rw [if_neg (by rw [hprotected]; exact Bool.false_ne_true)]
      rw [hhandled]
      exact (handleOwned_matched hmatched).2

end Entry

/-! ### One file -/

/-- **The files that are swept right**: each marked entry is a proven ghost, and where an entry is
overlooked another one, which is not, is not proven gone. -/
structure Sound (platform : Platform) (own : List ℤ) (controllerProbe : ℤ → Option String)
    (file : Pidfile) : Prop where
  kills : ∀ e ∈ reached platform own controllerProbe file,
    Marked platform own file e → ProvenGhost platform file e
  forgets : file.proceeds controllerProbe = true →
    (∃ e ∈ file.entries, Overlooked platform own file e) →
      ∃ e ∈ file.entries, ¬ Overlooked platform own file e ∧
        ¬ (handleIn platform own file e).Proven

theorem sweepsRight_iff (platform : Platform) (own : List ℤ) (controllerProbe : ℤ → Option String)
    (file : Pidfile) :
    SweepsRight platform own controllerProbe file ↔ Sound platform own controllerProbe file := by
  have hsorted := entry_sorted platform own file
  constructor
  · intro h
    refine ⟨fun e he hmarked => ?_, fun hproceeds hover => ?_⟩
    · have hsignal := (signal_iff_marked platform own file e).mpr hmarked
      exact (warranted_iff he hmarked).mp (h.kills e he hsignal)
    · obtain ⟨e, he, hover⟩ := hover
      -- a file with an overlooked entry is not unlinked, so that another entry keeps it
      by_contra hnone
      have hall : unlinked platform own controllerProbe file = true := by
        unfold unlinked
        rw [hproceeds, Bool.true_and, List.all_eq_true]
        intro e' he'
        refine decide_eq_true ?_
        rcases hsorted e' with ⟨hlets, -, -⟩ | ⟨hlets, -, -⟩ | ⟨-, hgroup, hnot⟩
        · exact hlets
        · exact hlets
        · exact absurd ⟨e', he', hnot, fun hproven => hgroup hproven.2⟩ hnone
      have hproven := h.forgets hall e he
      rcases hsorted e with ⟨-, -, hnot⟩ | ⟨-, hunproven, -⟩ | ⟨-, -, hnot⟩
      · exact hnot hover
      · exact hunproven hproven
      · exact hnot hover
  · intro h
    refine ⟨fun e he hsignal => ?_, fun hunlinked e he => ?_⟩
    · have hmarked := (signal_iff_marked platform own file e).mp hsignal
      exact (warranted_iff he hmarked).mpr (h.kills e he hmarked)
    · unfold unlinked at hunlinked
      rw [Bool.and_eq_true, List.all_eq_true] at hunlinked
      obtain ⟨hproceeds, hlets⟩ := hunlinked
      by_contra hunproven
      have hover : Overlooked platform own file e := by
        rcases hsorted e with ⟨-, hproven, -⟩ | ⟨-, -, hover⟩ | ⟨hkept, -, -⟩
        · exact absurd hproven hunproven
        · exact hover
        · exact absurd (of_decide_eq_true (hlets e he)) hkept
      obtain ⟨e', he', hnot, hunproven'⟩ := h.forgets hproceeds ⟨e, he, hover⟩
      rcases hsorted e' with ⟨-, hproven, -⟩ | ⟨-, -, hover'⟩ | ⟨hkept, -, -⟩
      · exact hunproven' hproven
      · exact hnot hover'
      · exact hkept (of_decide_eq_true (hlets e' he'))

/-- **A sweep kills proven ghosts only, and forgets what is proven gone**, if and only if each file
that it comes to is sound. -/
theorem ghost_cleanup_iff (platform : Platform) (own : List ℤ)
    (controllerProbe : ℤ → Option String) (files : List Pidfile) :
    (∀ file ∈ cleanupGhosts platform own controllerProbe files,
        SweepsRight platform own controllerProbe file) ↔
      ∀ file ∈ cleanupGhosts platform own controllerProbe files,
        Sound platform own controllerProbe file :=
  forall₂_congr fun file _ => sweepsRight_iff platform own controllerProbe file

/-! ### Files that are not -/

/-- The process of a worker, at this pid. -/
def workerIdentity (pid : ℤ) : Identity := ⟨some pid, none, some "worker", false⟩

/-- An entry of the worker 500, of the controller 100. -/
def workerEntry : Entry where
  pid := some 500
  pgid := some 500
  agent := "codex"
  detached := false
  controllerIdentity := some (startIdentity 100 "controller")
  workerIdentity := some (workerIdentity 500)
  creationTime := false

/-- The worker is there, and a signal ends it with its group. -/
def killedAnswers : Answers where
  psMeta := true
  identity := some (workerIdentity 500)
  identityAgain := some (workerIdentity 500)
  liveness := some true
  livenessAgain := some true
  group := some false
  creationMatches := false
  delivered := true

/-- A file of the controller 100. -/
def controllerFile (bashTail : Bool) : Pidfile :=
  ⟨some (some 100), bashTail, some [none, some (workerEntry, killedAnswers)]⟩

/-- A ghost of a controller whose pid is another's by now is killed, and its file unlinked. -/
example : (handleIn .posix [] (controllerFile false) (workerEntry, killedAnswers)).signal =
      some (.group 500 true) ∧
    unlinked .posix [] (fun _ => some "other") (controllerFile false) = true := by decide +kernel

/-- **A worker whose controller is there is killed**, in a file of a bash-tail launcher; and **a
worker of the sweep's own is forgotten**. -/
theorem ghost_cleanup_fails :
    ¬ (∀ file ∈ cleanupGhosts .posix [] (fun _ => some "controller") [controllerFile true],
        SweepsRight .posix [] (fun _ => some "controller") file) ∧
      ¬ (∀ file ∈ cleanupGhosts .posix [500] (fun _ => some "other") [controllerFile false],
        SweepsRight .posix [500] (fun _ => some "other") file) := by
  constructor
  · intro h
    have hright := h (controllerFile true) List.mem_cons_self
    have hwarranted := hright.kills (workerEntry, killedAnswers) (by decide +kernel)
      (by decide +kernel)
    obtain ⟨pid, current, -, hconsulted, -⟩ := hwarranted.controller
    cases hconsulted
  · intro h
    have hright := h (controllerFile false) List.mem_cons_self
    have hproven := hright.forgets (by decide +kernel) (workerEntry, killedAnswers)
      (by decide +kernel)
    exact absurd hproven.2 (by decide +kernel)

end GoalFlight.Acp
