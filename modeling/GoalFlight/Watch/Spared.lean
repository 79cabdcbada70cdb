import Mathlib.Tactic.Set
import GoalFlight.Watch.Idle

/-!
# The watcher: a worker that shows life is spared

A worker is written off, or stopped, after a streak of polls that have looked at everything and
found nothing, or could not tell; `live_worker_spared` says which polls keep to that.  Two kinds do
not: the trace of a worker vetoes `wedged` but not `liveness_indeterminate`, and a log that is found
to have grown only in the recheck of a terminal marker does not shorten the silence.
-/

namespace GoalFlight.Watch

/-! ### What a poll found -/

section Found

variable (cfg : Settings) (p : Poll)

/-- The newest write that a look at the tree found is not in the idle window. -/
def Old (sample : TreeMtimeSample) : Prop :=
  sample.available = true → ∀ newest, sample.newest = some newest →
    cfg.maxIdleSecs ≤ p.now - newest

variable (s : Watcher)

/-- **No probe found life**: no CPU above epsilon, no live children, no write in the window, no
wait. -/
structure NoLife : Prop where
  alive : p.workerAlive = true
  cpu : ∀ pct, p.pgroupCpu = some pct → pct ≤ cfg.cpuEpsilon
  descendants : ∀ n, p.liveDescendants = some n → n = 0
  events : cfg.workerCwdLeg = true → ∀ sample, p.treeEvents = some sample → Old cfg p sample
  walk : ∀ sample, (judge cfg s p).walked = some sample → Old cfg p sample
  wait : p.workerWait = false

/-- Every probe gave an answer, and the tree was walked in this poll. -/
structure AllKnown : Prop where
  cpu : p.pgroupCpu.isSome
  descendants : p.liveDescendants.isSome
  walk : ∃ sample, (judge cfg s p).walked = some sample ∧ sample.available = true

/-- One of the probes could not tell. -/
def SomeUnknown : Prop :=
  p.pgroupCpu = none ∨ p.liveDescendants = none ∨ cfg.workerCwdLeg = false ∨
    ∃ sample, (judge cfg s p).walked = some sample ∧ sample.available = false

end Found

/-! ### What a state says -/

section Classified

variable {cfg : Settings} {s : Watcher} {p : Poll} {leg : TreeProbe × Option ℚ}

/-- An answer of the tree that is measured has an age, and no other has. -/
def Plain (leg : TreeProbe × Option ℚ) : Prop := leg.1 = .measured ∨ leg.2 = none

theorem treeResult_of_plain (h : Plain leg) : (probesWith cfg s p leg).treeResult = leg.1 := by
  unfold Probes.treeResult probesWith
  rcases h with hmeasured | hnone
  · rw [if_neg]
    rw [hmeasured]
    exact fun h => TreeProbe.noConfusion h.1
  · rw [if_neg]
    rw [hnone]
    exact fun h => Bool.false_ne_true h.2

theorem plain_idleTreeLeg (sample : TreeMtimeSample) : Plain (idleTreeLeg cfg p sample) := by
  unfold idleTreeLeg
  split
  · split <;> exact .inl rfl
  · exact .inr rfl

theorem measured_iff (sample : TreeMtimeSample) :
    (idleTreeLeg cfg p sample).1 = .measured ↔ sample.available = true := by
  unfold idleTreeLeg
  split
  · rename_i h
    split <;> simp [h]
  · rename_i h
    simp [h]

theorem old_of_leg {sample : TreeMtimeSample} (hpos : 0 < cfg.maxIdleSecs)
    (h : (idleTreeLeg cfg p sample).1 = .measured →
      ∀ age, (idleTreeLeg cfg p sample).2 = some age → cfg.maxIdleSecs ≤ age) :
    Old cfg p sample := by
  intro havailable newest hnewest
  have hleg : idleTreeLeg cfg p sample = (.measured, some (max 0 (p.now - newest))) := by
    unfold idleTreeLeg
    rw [if_pos havailable, hnewest]
  have hage := h (by rw [hleg]) _ (by rw [hleg])
  rcases le_max_iff.mp hage with hzero | hold
  · exact absurd hzero (not_le.mpr hpos)
  · exact hold

/-- **A state that counts against the worker**: the window is over, and no probe is positive. -/
structure CountsAgainst (cfg : Settings) (s : Watcher) (p : Poll) (leg : TreeProbe × Option ℚ) :
    Prop where
  alive : p.workerAlive = true
  positive : 0 < cfg.maxIdleSecs
  silent : cfg.maxIdleSecs ≤ secondsSinceEvent s p
  cpuSampled : cpuPct cfg s p = p.pgroupCpu
  cpu : ∀ pct, p.pgroupCpu = some pct → pct ≤ cfg.cpuEpsilon
  looks : looksFurther cfg s p = true
  counted : liveDescendants cfg s p = p.liveDescendants
  descendants : ∀ n, p.liveDescendants = some n → n = 0
  tree : leg.1 = .measured → ∀ age, leg.2 = some age → cfg.maxIdleSecs ≤ age

theorem countsAgainst_of_probes (hplain : Plain leg) (halive : p.workerAlive = true)
    (hpos : 0 < cfg.maxIdleSecs) (hsilent : cfg.maxIdleSecs ≤ secondsSinceEvent s p)
    (hcpu : ∀ pct, cpuPct cfg s p = some pct → pct ≤ cfg.cpuEpsilon)
    (hdescendants : ∀ n, liveDescendants cfg s p = some n → n = 0)
    (htree : (probesWith cfg s p leg).treeResult = .measured →
      ∀ age, leg.2 = some age → cfg.maxIdleSecs ≤ age) : CountsAgainst cfg s p leg := by
  have hwindow : idleWindowExpired cfg s p = true := by
    unfold idleWindowExpired
    rw [halive, Bool.true_and]
    exact decide_eq_true ⟨hpos, hsilent⟩
  have hsampled : cpuPct cfg s p = p.pgroupCpu := by
    unfold cpuPct
    rw [if_pos halive, if_pos hwindow]
  have hlooks : looksFurther cfg s p = true := by
    unfold looksFurther
    rw [hwindow, Bool.true_and]
    cases hpct : cpuPct cfg s p with
    | none => simp
    | some pct => simpa [cpuConfirmedIdle] using hcpu pct hpct
  have hcounted : liveDescendants cfg s p = p.liveDescendants := if_pos hlooks
  rw [hsampled] at hcpu
  rw [hcounted] at hdescendants
  rw [treeResult_of_plain hplain] at htree
  exact ⟨halive, hpos, hsilent, hsampled, hcpu, hlooks, hcounted, hdescendants, htree⟩

/-- **Classified against the worker.** -/
theorem countsAgainst_of_classified (hplain : Plain leg)
    (h : classifyWith cfg s p leg = .wedged ∨ classifyWith cfg s p leg = .livenessIndeterminate) :
    CountsAgainst cfg s p leg := by
  rcases h with h | h
  · obtain ⟨halive, hpos, hsilent, hnothing⟩ := classifyLiveness_wedged h
    refine countsAgainst_of_probes hplain halive hpos hsilent ?_ ?_ fun _ => hnothing.writes
    · obtain ⟨pct, hpct, hle⟩ := hnothing.cpu
      intro pct' hpct'
      rw [show (probesWith cfg s p leg).pgroupCpu = some pct' from hpct'] at hpct
      rw [Option.some.inj hpct]
      exact hle
    · intro n hn
      have hzero := hnothing.descendants
      rw [show (probesWith cfg s p leg).liveDescendants = some n from hn] at hzero
      exact Option.some.inj hzero
  · obtain ⟨halive, hpos, hsilent, -, hunclear⟩ := classifyLiveness_indeterminate_iff.mp h
    exact countsAgainst_of_probes hplain halive hpos hsilent hunclear.cpu hunclear.descendants
      hunclear.writes

/-- **What the first look at the tree is of.** -/
theorem lookAtTree_cases (hlooks : looksFurther cfg s p = true)
    (hdescendants : ∀ n, liveDescendants cfg s p = some n → n = 0) :
    (cfg.workerCwdLeg = false ∧ (lookAtTree cfg s p).leg = (.skipped, none) ∧
        (lookAtTree cfg s p).walked = none ∧ (lookAtTree cfg s p).cached = false) ∨
      ((lookAtTree cfg s p).cached = true ∧ ∃ sample,
        (lookAtTree cfg s p).leg = idleTreeLeg cfg p sample ∧
          ∀ event, p.treeEvents = some event → event = sample) ∨
      ((lookAtTree cfg s p).cached = false ∧ (lookAtTree cfg s p).walked = some p.walk ∧
        (lookAtTree cfg s p).leg = idleTreeLeg cfg p p.walk ∧ p.treeEvents = none) := by
  have hnone : ((liveDescendants cfg s p).any fun n => 0 < n) = false := by
    cases hn : liveDescendants cfg s p with
    | none => rfl
    | some n => simp [hdescendants n hn]
  unfold lookAtTree
  simp only [hlooks, if_true, hnone, Bool.not_false, Bool.true_and]
  cases hleg : cfg.workerCwdLeg with
  | false => exact .inl ⟨rfl, rfl, rfl, rfl⟩
  | true =>
    right
    simp only [if_true]
    cases hevents : p.treeEvents with
    | some event => exact .inl ⟨rfl, event, rfl, fun event' h => (Option.some.inj h).symm⟩
    | none =>
      cases s.idleTreeProbe with
      | none => exact .inr ⟨rfl, rfl, rfl, rfl⟩
      | some kept =>
        obtain ⟨walkedAt, sample⟩ := kept
        by_cases hdue : cfg.probeInterval ≤ p.nowMono - walkedAt
        · simp only [if_pos hdue]
          exact .inr ⟨trivial, trivial, trivial, trivial⟩
        · simp only [if_neg hdue]
          exact .inl ⟨trivial, sample, rfl, fun event h => by cases h⟩

theorem plain_lookAtTree : Plain (lookAtTree cfg s p).leg := by
  unfold lookAtTree
  simp only
  split
  · split
    · split
      · exact plain_idleTreeLeg _
      · split <;> exact plain_idleTreeLeg _
      · exact plain_idleTreeLeg _
    · exact .inr rfl
  · exact .inr rfl

theorem traceVeto_wedged {state : LivenessState} (h : traceVeto p state = .wedged) :
    state = .wedged ∧ p.traceActive = false := by
  unfold traceVeto at h
  split at h
  · cases h
  · rename_i hnot
    subst h
    exact ⟨rfl, by simpa using hnot⟩

theorem traceVeto_indeterminate {state : LivenessState} :
    traceVeto p state = .livenessIndeterminate ↔ state = .livenessIndeterminate := by
  unfold traceVeto
  split
  · rename_i h
    rw [h.1]
    exact iff_of_false LivenessState.noConfusion LivenessState.noConfusion
  · exact Iff.rfl

theorem traceVeto_counts {state : LivenessState}
    (h : traceVeto p state = .wedged ∨ traceVeto p state = .livenessIndeterminate) :
    (state = .wedged ∨ state = .livenessIndeterminate) ∧
      (traceVeto p state = .wedged → p.traceActive = false) ∧ traceVeto p state = state := by
  rcases h with h | h
  · obtain ⟨hstate, htrace⟩ := traceVeto_wedged h
    exact ⟨.inl hstate, fun _ => htrace, h.trans hstate.symm⟩
  · have hstate := traceVeto_indeterminate.mp h
    refine ⟨.inr hstate, fun hwedged => (traceVeto_wedged hwedged).2, h.trans hstate.symm⟩

/-- **What a state of the liveness section says.** -/
structure Judged (cfg : Settings) (s : Watcher) (p : Poll) (leg : TreeProbe × Option ℚ) : Prop where
  plain : Plain leg
  classified : classifyWith cfg s p leg = livenessState cfg s p
  vetoed : livenessState cfg s p = .wedged → p.traceActive = false
  noLife : NoLife cfg p s
  tree : (cfg.workerCwdLeg = false ∧ leg = (.skipped, none)) ∨
    ∃ sample, (judge cfg s p).walked = some sample ∧ leg = idleTreeLeg cfg p sample

theorem judge_classified
    (h : livenessState cfg s p = .wedged ∨ livenessState cfg s p = .livenessIndeterminate) :
    ∃ leg, Judged cfg s p leg := by
  -- the state of the first look
  set first :=
    if intentionallyWaiting p then LivenessState.intentionallyBlocked
    else traceVeto p (classifyWith cfg s p (lookAtTree cfg s p).leg) with hfirst
  have hcounts : first = .wedged ∨ first = .livenessIndeterminate := by
    unfold livenessState judge at h
    simp only at h
    rw [← hfirst] at h
    split at h
    · rename_i hcached
      exact hcached.2
    · exact h
  have hwait : intentionallyWaiting p = false := by
    cases hwaiting : intentionallyWaiting p with
    | false => rfl
    | true =>
      rw [hwaiting, if_pos rfl] at hfirst
      rw [hfirst] at hcounts
      rcases hcounts with h | h <;> cases h
  rw [hwait, if_neg Bool.false_ne_true] at hfirst
  rw [hfirst] at hcounts
  obtain ⟨hclassified, hvetoed, hsame⟩ := traceVeto_counts hcounts
  have hagainst := countsAgainst_of_classified plain_lookAtTree hclassified
  have hnoWait : p.workerWait = false := by
    unfold intentionallyWaiting at hwait
    rw [hagainst.alive, Bool.and_true] at hwait
    exact hwait
  have hdescendants : ∀ n, liveDescendants cfg s p = some n → n = 0 := by
    rw [hagainst.counted]
    exact hagainst.descendants
  -- what is known, of the tree that was looked at last
  have hjudge : judge cfg s p =
      if (lookAtTree cfg s p).cached = true then
        ⟨traceVeto p (classifyWith cfg s p (idleTreeLeg cfg p p.rewalk)), some p.rewalk,
          some (p.nowMono, p.rewalk)⟩
      else ⟨first, (lookAtTree cfg s p).walked, (lookAtTree cfg s p).kept⟩ := by
    unfold judge
    simp only [hwait, Bool.false_eq_true, if_false, ← hfirst]
    rw [← hfirst] at hcounts
    simp only [hcounts, and_true]
  rcases lookAtTree_cases hagainst.looks hdescendants with
    ⟨hleg, hskipped, hwalked, hcached⟩ | ⟨hcached, sample, hleg, hevents⟩ |
    ⟨hcached, hwalked, hleg, hevents⟩
  · rw [hcached, if_neg Bool.false_ne_true] at hjudge
    have hstate : livenessState cfg s p = first := by rw [livenessState, hjudge]
    refine ⟨(.skipped, none), .inr rfl, ?_, ?_, ⟨hagainst.alive, hagainst.cpu,
      hagainst.descendants, ?_, ?_, hnoWait⟩, .inl ⟨hleg, rfl⟩⟩
    · rw [hstate, hfirst, hsame, hskipped]
    · rw [hstate, hfirst]
      exact hvetoed
    · intro htrue
      rw [hleg] at htrue
      cases htrue
    · intro sample hsample
      rw [hjudge, show (Judgement.mk first (lookAtTree cfg s p).walked _).walked = none from hwalked]
        at hsample
      cases hsample
  · rw [hcached, if_pos rfl] at hjudge
    have hstate : livenessState cfg s p =
        traceVeto p (classifyWith cfg s p (idleTreeLeg cfg p p.rewalk)) := by
      rw [livenessState, hjudge]
    rw [hstate] at h
    obtain ⟨hclassified', hvetoed', hsame'⟩ := traceVeto_counts h
    have hagainst' := countsAgainst_of_classified (plain_idleTreeLeg p.rewalk) hclassified'
    refine ⟨idleTreeLeg cfg p p.rewalk, plain_idleTreeLeg _, ?_, ?_, ⟨hagainst.alive, hagainst.cpu,
      hagainst.descendants, ?_, ?_, hnoWait⟩, .inr ⟨p.rewalk, by rw [hjudge], rfl⟩⟩
    · rw [hstate, hsame']
    · rw [hstate]
      exact hvetoed'
    · intro _ event hevent
      rw [hevents event hevent]
      have htree := hagainst.tree
      rw [hleg] at htree
      exact old_of_leg hagainst.positive htree
    · intro walk hwalk
      rw [hjudge] at hwalk
      rw [← Option.some.inj hwalk]
      exact old_of_leg hagainst.positive hagainst'.tree
  · rw [hcached, if_neg Bool.false_ne_true] at hjudge
    have hstate : livenessState cfg s p = first := by rw [livenessState, hjudge]
    have htree := hagainst.tree
    rw [hleg] at htree
    refine ⟨idleTreeLeg cfg p p.walk, plain_idleTreeLeg _, ?_, ?_, ⟨hagainst.alive, hagainst.cpu,
      hagainst.descendants, ?_, ?_, hnoWait⟩, .inr ⟨p.walk, ?_, rfl⟩⟩
    · rw [hstate, hfirst, hsame, hleg]
    · rw [hstate, hfirst]
      exact hvetoed
    · intro _ event hevent
      rw [hevents] at hevent
      cases hevent
    · intro walk hwalk
      rw [hjudge] at hwalk
      rw [← Option.some.inj (hwalked.symm.trans hwalk)]
      exact old_of_leg hagainst.positive htree
    · rw [hjudge]
      exact hwalked

end Classified

/-! ### The growth of the log -/

/-- The log is found to have another size. -/
def noteGrowth (heard : List ℚ × Option ℕ) (size : ℕ) (foundAt : ℚ) : List ℚ × Option ℕ :=
  if some size ≠ heard.2 then (heard.1 ++ [foundAt], some size) else heard

/-- What a poll finds the log to have grown. -/
def hearPoll (heard : List ℚ × Option ℕ) (p : Poll) : List ℚ × Option ℕ :=
  let heard := noteGrowth heard p.scan.size p.scannedAt
  if p.scan.terminal.isSome then noteGrowth heard p.recheck.size p.recheckedAt else heard

/-- When the log was found to have grown, and its last size. -/
def hear (polls : List Poll) : List ℚ × Option ℕ := polls.foldl hearPoll ([], none)

/-- **The log was silent** for so long at a poll, since the watcher started and since each time it
was found to have grown, the poll's own scans included. -/
def Silent (startedAt : ℚ) (before : List Poll) (p : Poll) (secs : ℚ) : Prop :=
  secs ≤ p.nowMono - startedAt ∧ ∀ t ∈ (hear (before ++ [p])).1, secs ≤ p.nowMono - t

/-- One round, of the watcher. -/
def step (cfg : Settings) (s : Watcher) (p : Poll) : Watcher := (poll cfg s p).1

/-- The clock does not run backwards between polls. -/
def Clocked (s : Watcher) (p : Poll) : Prop := s.endedAt ≤ p.scannedAt

instance (s : Watcher) (p : Poll) : Decidable (Clocked s p) :=
  inferInstanceAs (Decidable (_ ≤ _))

section Growth

variable {cfg : Settings} {s : Watcher} {p : Poll}

theorem seeTerminal_eq (counted : Watcher) : ∃ seen seenAt size, seeTerminal p counted =
    { counted with terminalSeen := seen, terminalSeenAt := seenAt, terminalSeenSize := size } := by
  have hnoted : ∃ seen seenAt size, noteTerminal p counted =
      { counted with terminalSeen := seen, terminalSeenAt := seenAt, terminalSeenSize := size } := by
    unfold noteTerminal
    split
    · exact ⟨_, _, _, rfl⟩
    · split <;> exact ⟨_, _, _, rfl⟩
  obtain ⟨seen, seenAt, size, hnoted⟩ := hnoted
  unfold seeTerminal
  simp only [hnoted]
  generalize (if intentionallyWaiting p then p.waitMatches else p.foreignOwns) = asked
  split <;> exact ⟨_, _, _, rfl⟩

theorem countStreaks_log (cfg : Settings) (s : Watcher) (p : Poll) :
    (countStreaks cfg s p).lastSize = (recheckStability s p).lastSize ∧
      (countStreaks cfg s p).lastChange = (recheckStability s p).lastChange ∧
      (countStreaks cfg s p).endedAt = p.graceAt := by
  unfold countStreaks
  simp only
  split <;> exact ⟨rfl, rfl, rfl⟩

/-- The watcher that a round comes to, before what it discards. -/
def counted (cfg : Settings) (s : Watcher) (p : Poll) : Watcher :=
  countQuiet cfg s p (seeTerminal p (countStreaks cfg s p))

theorem counted_eq (cfg : Settings) (s : Watcher) (p : Poll) :
    ∃ quiet seen seenAt size, counted cfg s p =
      { countStreaks cfg s p with
        postTerminalQuietStreak := quiet
        terminalSeen := seen
        terminalSeenAt := seenAt
        terminalSeenSize := size } := by
  obtain ⟨seen, seenAt, size, hseen⟩ := seeTerminal_eq (p := p) (countStreaks cfg s p)
  unfold counted countQuiet
  rw [hseen]
  exact ⟨_, _, _, _, rfl⟩

theorem step_eq (cfg : Settings) (s : Watcher) (p : Poll) :
    step cfg s p = counted cfg s p ∨
      (step cfg s p = discardCandidate p (counted cfg s p) ∧ (poll cfg s p).2 = .goesOn) := by
  unfold step poll
  simp only
  rw [← counted]
  split
  · exact .inr ⟨rfl, rfl⟩
  · exact .inl rfl
  · left
    split
    · rfl
    · split
      · rfl
      · split <;> rfl

theorem poll_keeps (cfg : Settings) (s : Watcher) (p : Poll) :
    (step cfg s p).lastSize = (countStreaks cfg s p).lastSize ∧
      (step cfg s p).lastChange = (countStreaks cfg s p).lastChange ∧
      (step cfg s p).endedAt = (countStreaks cfg s p).endedAt ∧
      ((step cfg s p).wedgeStreak = (countStreaks cfg s p).wedgeStreak ∨
        (step cfg s p).wedgeStreak = 0) ∧
      ((step cfg s p).indeterminateStreak = (countStreaks cfg s p).indeterminateStreak ∨
        (step cfg s p).indeterminateStreak = 0) := by
  obtain ⟨quiet, seen, seenAt, size, hcounted⟩ := counted_eq cfg s p
  rcases step_eq cfg s p with h | ⟨h, -⟩
  · rw [h, hcounted]
    exact ⟨rfl, rfl, rfl, .inl rfl, .inl rfl⟩
  · rw [h, hcounted]
    exact ⟨rfl, rfl, rfl, .inr rfl, .inr rfl⟩

/-- **The watcher has heard** these growths of the log: each was no later than the last change. -/
structure Heard (startedAt : ℚ) (heard : List ℚ × Option ℕ) (lastSize : Option ℕ)
    (lastChange : ℚ) : Prop where
  size : heard.2 = lastSize
  start : startedAt ≤ lastChange
  growths : ∀ t ∈ heard.1, t ≤ lastChange

namespace Heard

variable {startedAt lastChange foundAt : ℚ} {heard : List ℚ × Option ℕ} {lastSize : Option ℕ}

theorem later (h : Heard startedAt heard lastSize lastChange) (hle : lastChange ≤ foundAt) :
    Heard startedAt heard lastSize foundAt :=
  ⟨h.size, h.start.trans hle, fun t ht => (h.growths t ht).trans hle⟩

theorem noteSize {s : Watcher} (h : Heard startedAt heard s.lastSize s.lastChange) (size : ℕ)
    (hle : s.lastChange ≤ foundAt) :
    Heard startedAt (noteGrowth heard size foundAt) (noteSize s size foundAt).lastSize
        (noteSize s size foundAt).lastChange ∧
      (Watch.noteSize s size foundAt).lastSize = some size ∧
      (Watch.noteSize s size foundAt).lastChange ≤ foundAt := by
  unfold Watch.noteSize noteGrowth
  rw [h.size]
  split
  · refine ⟨⟨rfl, h.start.trans hle, fun t ht => ?_⟩, rfl, le_refl _⟩
    rcases List.mem_append.mp ht with ht | ht
    · exact (h.growths t ht).trans hle
    · rw [List.mem_singleton.mp ht]
  · rename_i hsame
    exact ⟨h, (not_not.mp hsame).symm, hle⟩

end Heard

theorem reloadPrompt_log (s : Watcher) (p : Poll) :
    (reloadPrompt s p).lastSize = s.lastSize ∧ (reloadPrompt s p).lastChange = s.lastChange := by
  unfold reloadPrompt
  split <;> exact ⟨rfl, rfl⟩

variable {startedAt : ℚ} {heard : List ℚ × Option ℕ}

section

variable (h : Heard startedAt heard s.lastSize s.lastChange)
  (hclock : s.lastChange ≤ p.scannedAt)
include h hclock

theorem listen_heard :
    Heard startedAt (noteGrowth heard p.scan.size p.scannedAt) (listen s p).lastSize
        (listen s p).lastChange ∧
      (listen s p).lastSize = some p.scan.size ∧ (listen s p).lastChange ≤ p.loopMono := by
  obtain ⟨hsize, hchange⟩ := reloadPrompt_log s p
  rw [← hsize, ← hchange] at h
  rw [← hchange] at hclock
  obtain ⟨hheard, hlast, hle⟩ := h.noteSize p.scan.size hclock
  have hloop := hle.trans p.clock.1
  unfold listen
  simp only
  split
  · exact ⟨hheard.later hloop, hlast, le_refl _⟩
  · exact ⟨hheard, hlast, hloop⟩

theorem step_heard :
    Heard startedAt (hearPoll heard p) (step cfg s p).lastSize (step cfg s p).lastChange ∧
      (step cfg s p).lastChange ≤ (step cfg s p).endedAt := by
  obtain ⟨hheard, hlast, hle⟩ := listen_heard h hclock
  obtain ⟨-, hnow, hrecheck, hseen, hwaited, hgrace⟩ := p.clock
  have hbefore : (listen s p).lastChange ≤ p.recheckedAt := hle.trans (hnow.trans hrecheck)
  have hafter : p.recheckedAt ≤ p.graceAt := hseen.trans (hwaited.trans hgrace)
  obtain ⟨hsize, hchange, hended, -, -⟩ := poll_keeps cfg s p
  obtain ⟨hsize', hchange', hended'⟩ := countStreaks_log cfg s p
  rw [hsize, hchange, hended, hsize', hchange', hended']
  unfold recheckStability hearPoll
  simp only
  split
  · obtain ⟨hboth, -, hle'⟩ := hheard.noteSize p.recheck.size hbefore
    exact ⟨hboth, hle'.trans hafter⟩
  · exact ⟨hheard, hbefore.trans hafter⟩

end

theorem hear_concat (polls : List Poll) (p : Poll) :
    hear (polls ++ [p]) = hearPoll (hear polls) p := by
  unfold hear
  rw [List.foldl_append]
  rfl

/-- **The last change** is no earlier than any growth of the log. -/
theorem run_heard (startedAt : ℚ) (polls : List Poll)
    (hclock : Machine.Meets (step cfg) Clocked (Watcher.start startedAt) polls) :
    let s := Machine.run (step cfg) (Watcher.start startedAt) polls
    Heard startedAt (hear polls) s.lastSize s.lastChange ∧ s.lastChange ≤ s.endedAt := by
  induction polls using List.reverseRecOn with
  | nil =>
    exact ⟨⟨rfl, le_refl _, nofun⟩, le_refl _⟩
  | append_singleton polls p ih =>
    rw [Machine.meets_append] at hclock
    obtain ⟨hheard, hle⟩ := ih hclock.1
    have hnow : Clocked _ p := hclock.2.1
    simp only [Machine.run_append, Machine.run_cons, Machine.run_nil]
    rw [hear_concat]
    exact step_heard hheard (hle.trans hnow)

/-- **The silence that a poll goes by** is of the log, where the recheck finds no growth. -/
theorem silent_of_heard {before : List Poll} {secs : ℚ}
    (h : Heard startedAt (hear before) s.lastSize s.lastChange) (hclock : s.lastChange ≤ p.scannedAt)
    (hlate : p.scan.terminal.isSome → p.recheck.size = p.scan.size)
    (hsecs : secs ≤ secondsSinceEvent s p) : Silent startedAt before p secs := by
  obtain ⟨hheard, hlast, -⟩ := listen_heard h hclock
  have hsame : hear (before ++ [p]) = noteGrowth (hear before) p.scan.size p.scannedAt := by
    rw [hear_concat]
    unfold hearPoll
    simp only
    split
    · rename_i hterminal
      have hlastSize := hheard.size.trans hlast
      generalize noteGrowth (hear before) p.scan.size p.scannedAt = heard at hlastSize ⊢
      unfold noteGrowth
      rw [hlastSize, hlate hterminal, if_neg (not_not.mpr rfl)]
    · rfl
  refine ⟨hsecs.trans (sub_le_sub_left hheard.start _), fun t ht => ?_⟩
  rw [hsame] at ht
  exact hsecs.trans (sub_le_sub_left (hheard.growths t ht) _)

end Growth

/-! ### The streaks -/

section Streaks

variable {cfg : Settings} {s : Watcher} {p : Poll}

theorem wedgeStreak_step (cfg : Settings) (s : Watcher) (p : Poll) :
    (step cfg s p).wedgeStreak = 0 ∨
      (livenessState cfg s p = .wedged ∧ (step cfg s p).wedgeStreak = s.wedgeStreak + 1) := by
  obtain ⟨-, -, -, hwedge, -⟩ := poll_keeps cfg s p
  rcases hwedge with h | h
  · rw [h]
    unfold countStreaks
    simp only
    split
    · rename_i hstate
      exact .inr ⟨hstate, rfl⟩
    · exact .inl rfl
    · exact .inl rfl
  · exact .inl h

theorem indeterminateStreak_step (cfg : Settings) (s : Watcher) (p : Poll) :
    (step cfg s p).indeterminateStreak = 0 ∨ (livenessState cfg s p = .livenessIndeterminate ∧
      (step cfg s p).indeterminateStreak = s.indeterminateStreak + 1) := by
  obtain ⟨-, -, -, -, hindeterminate⟩ := poll_keeps cfg s p
  rcases hindeterminate with h | h
  · rw [h]
    unfold countStreaks
    simp only
    split
    · exact .inl rfl
    · rename_i hstate
      exact .inr ⟨hstate, rfl⟩
    · exact .inl rfl
  · exact .inl h

theorem poll_outcome (cfg : Settings) (s : Watcher) (p : Poll) :
    (∃ waits, poll cfg s p = (counted cfg s p, verdict cfg s p (counted cfg s p) waits)) ∨
      (poll cfg s p).2 = .goesOn ∨ (poll cfg s p).2 = .inconclusiveTimeout ∨
      (poll cfg s p).2 = .otherExit := by
  unfold poll
  simp only
  rw [← counted]
  split
  · exact .inr (.inl rfl)
  · exact .inr (.inr (.inl rfl))
  · split
    · exact .inr (.inr (.inr rfl))
    · split
      · unfold afterController
        right
        split
        · exact .inr (.inr rfl)
        · split
          · exact .inl rfl
          · exact .inr (.inr rfl)
      · split
        · unfold afterDeath
          right
          split
          · exact .inr (.inr rfl)
          · split
            · split
              · exact .inr (.inr rfl)
              · exact .inl rfl
            · split
              · exact .inl rfl
              · exact .inr (.inr rfl)
        · exact .inl ⟨_, rfl⟩

/-- **A verdict** is of a round whose streak is long enough. -/
theorem streak_of_outcome (cfg : Settings) (s : Watcher) (p : Poll) :
    ((poll cfg s p).2 = .idleTimeout → wedgeConfirmSamples ≤ (step cfg s p).wedgeStreak) ∧
      ((poll cfg s p).2 = .terminateIndeterminateWorker →
        wedgeConfirmSamples ≤ (step cfg s p).indeterminateStreak) := by
  rcases poll_outcome cfg s p with ⟨waits, hpoll⟩ | hgoes | hinconclusive | hother
  · unfold step
    rw [hpoll]
    simp only
    unfold verdict
    split
    · rename_i h
      refine ⟨fun _ => h.2.1, ?_⟩
      split <;> exact fun h => Outcome.noConfusion h
    · split
      · rename_i h
        exact ⟨fun h => Outcome.noConfusion h, fun _ => h.2⟩
      · exact ⟨fun h => Outcome.noConfusion h, fun h => Outcome.noConfusion h⟩
  · rw [hgoes]
    exact ⟨fun h => Outcome.noConfusion h, fun h => Outcome.noConfusion h⟩
  · rw [hinconclusive]
    exact ⟨fun h => Outcome.noConfusion h, fun h => Outcome.noConfusion h⟩
  · rw [hother]
    exact ⟨fun h => Outcome.noConfusion h, fun h => Outcome.noConfusion h⟩

end Streaks

/-! ### The polls that do not keep to it -/

section Condition

variable (cfg : Settings) (s : Watcher) (p : Poll)

/-- The log is found to have grown in the recheck of a terminal marker, when the window is over. -/
def GrewLate : Prop :=
  idleWindowExpired cfg s p = true ∧ p.scan.terminal.isSome = true ∧ p.recheck.size ≠ p.scan.size

/-- With this answer for the tree, nothing can be told of the worker. -/
structure UnclearWith (leg : TreeProbe × Option ℚ) : Prop where
  alive : p.workerAlive = true
  positive : 0 < cfg.maxIdleSecs
  silent : cfg.maxIdleSecs ≤ secondsSinceEvent s p
  bound : indeterminateTimeoutS cfg ≤ secondsSinceEvent s p
  unclear : (probesWith cfg s p leg).Unclear cfg.maxIdleSecs cfg.cpuEpsilon

theorem unclearWith_iff (leg : TreeProbe × Option ℚ) :
    classifyWith cfg s p leg = .livenessIndeterminate ↔ UnclearWith cfg s p leg := by
  unfold classifyWith
  rw [classifyLiveness_indeterminate_iff]
  unfold indeterminateTimeoutS
  rw [resolveIndeterminateTimeoutS_resolved]
  exact ⟨fun ⟨halive, hpos, hsilent, hbound, hunclear⟩ => ⟨halive, hpos, hsilent, hbound, hunclear⟩,
    fun h => ⟨h.alive, h.positive, h.silent, h.bound, h.unclear⟩⟩

/-- **The trace of the worker is written**, and nothing can be told by the other probes, a second
look at the tree included where the first was of no walk. -/
structure TraceIgnored : Prop where
  trace : p.traceActive = true
  noWait : p.workerWait = false
  first : UnclearWith cfg s p (lookAtTree cfg s p).leg
  again : (lookAtTree cfg s p).cached = true → UnclearWith cfg s p (idleTreeLeg cfg p p.rewalk)

theorem traceIgnored_iff : TraceIgnored cfg s p ↔
    p.traceActive = true ∧ livenessState cfg s p = .livenessIndeterminate := by
  constructor
  · intro h
    have hwait : intentionallyWaiting p = false := by
      unfold intentionallyWaiting
      rw [h.noWait, Bool.false_and]
    have hfirst : traceVeto p (classifyWith cfg s p (lookAtTree cfg s p).leg) =
        .livenessIndeterminate :=
      traceVeto_indeterminate.mpr ((unclearWith_iff cfg s p _).mpr h.first)
    refine ⟨h.trace, ?_⟩
    unfold livenessState judge
    simp only [hwait, Bool.false_eq_true, if_false, hfirst]
    split
    · rename_i hcached
      exact traceVeto_indeterminate.mpr ((unclearWith_iff cfg s p _).mpr (h.again hcached.1))
    · rfl
  · rintro ⟨htrace, hstate⟩
    have hnotWedged : ∀ state, traceVeto p state ≠ .wedged := by
      intro state hwedged
      rw [(traceVeto_wedged hwedged).2] at htrace
      cases htrace
    unfold livenessState judge at hstate
    simp only at hstate
    by_cases hwait : intentionallyWaiting p = true
    · rw [hwait, if_pos rfl, if_neg (fun h => by rcases h.2 with h | h <;> cases h)] at hstate
      cases hstate
    · have hnoWait : p.workerAlive = true → p.workerWait = false := by
        intro halive
        unfold intentionallyWaiting at hwait
        rw [halive, Bool.and_true] at hwait
        exact Bool.eq_false_iff.mpr hwait
      rw [if_neg hwait] at hstate
      split at hstate
      · rename_i hcached
        have hfirst := (unclearWith_iff cfg s p _).mp
          (traceVeto_indeterminate.mp (hcached.2.resolve_left (hnotWedged _)))
        have hagain := (unclearWith_iff cfg s p _).mp (traceVeto_indeterminate.mp hstate)
        exact ⟨htrace, hnoWait hfirst.alive, hfirst, fun _ => hagain⟩
      · rename_i hcached
        have hfirst := (unclearWith_iff cfg s p _).mp (traceVeto_indeterminate.mp hstate)
        exact ⟨htrace, hnoWait hfirst.alive, hfirst,
          fun h => absurd ⟨h, .inr hstate⟩ hcached⟩

/-- **The poll heeds what it finds.** -/
def Heeds : Prop := ¬ GrewLate cfg s p ∧ ¬ TraceIgnored cfg s p

end Condition

/-! ### The worker is spared -/

/-- **Each of the last polls** of a run. -/
def EachOfLast (n : ℕ) (shown : List Poll → Poll → Prop) (polls : List Poll) : Prop :=
  ∀ k < n, ∃ before p after, polls = before ++ p :: after ∧ after.length = k ∧ shown before p

section Run

variable (cfg : Settings) (startedAt : ℚ)

/-- The watcher after these polls. -/
def after (polls : List Poll) : Watcher :=
  Machine.run (step cfg) (Watcher.start startedAt) polls

/-- **A poll has shown the worker idle.** -/
structure ShownIdle (before : List Poll) (p : Poll) : Prop where
  noLife : NoLife cfg p (after cfg startedAt before)
  known : AllKnown cfg p (after cfg startedAt before)
  silent : Silent startedAt before p cfg.maxIdleSecs
  trace : p.traceActive = false

/-- **A poll has shown that nothing can be told.** -/
structure ShownUnclear (before : List Poll) (p : Poll) : Prop where
  noLife : NoLife cfg p (after cfg startedAt before)
  unknown : SomeUnknown cfg p (after cfg startedAt before)
  silent : Silent startedAt before p cfg.maxIdleSecs
  bound : Silent startedAt before p (indeterminateTimeoutS cfg)
  trace : p.traceActive = false

variable {cfg startedAt} {before : List Poll} {p : Poll}

section

variable (hclock : Machine.Meets (step cfg) Clocked (Watcher.start startedAt) (before ++ [p]))
  (hheeds : Heeds cfg (after cfg startedAt before) p)
include hclock hheeds

theorem shown_of_classified
    (h : livenessState cfg (after cfg startedAt before) p = .wedged ∨
      livenessState cfg (after cfg startedAt before) p = .livenessIndeterminate) :
    ∃ leg, Judged cfg (after cfg startedAt before) p leg ∧
      CountsAgainst cfg (after cfg startedAt before) p leg ∧ p.traceActive = false ∧
      ∀ secs, secs ≤ secondsSinceEvent (after cfg startedAt before) p →
        Silent startedAt before p secs := by
  obtain ⟨leg, hjudged⟩ := judge_classified h
  have hagainst : CountsAgainst cfg (after cfg startedAt before) p leg := by
    refine countsAgainst_of_classified hjudged.plain ?_
    rw [hjudged.classified]
    exact h
  have htrace : p.traceActive = false := by
    rcases h with hwedged | hindeterminate
    · exact hjudged.vetoed hwedged
    · cases htrace : p.traceActive with
      | false => rfl
      | true => exact absurd ((traceIgnored_iff cfg _ p).mpr ⟨htrace, hindeterminate⟩) hheeds.2
  rw [Machine.meets_append] at hclock
  obtain ⟨hheard, hended⟩ := run_heard startedAt before hclock.1
  have hnow : Clocked (after cfg startedAt before) p := hclock.2.1
  have hlate : p.scan.terminal.isSome → p.recheck.size = p.scan.size := by
    intro hterminal
    by_contra hgrew
    refine hheeds.1 ⟨?_, hterminal, hgrew⟩
    have hlooks := hagainst.looks
    unfold looksFurther at hlooks
    rw [Bool.and_eq_true] at hlooks
    exact hlooks.1
  exact ⟨leg, hjudged, hagainst, htrace,
    fun secs hsecs => silent_of_heard hheard (hended.trans hnow) hlate hsecs⟩

theorem shownIdle_of_wedged (h : livenessState cfg (after cfg startedAt before) p = .wedged) :
    ShownIdle cfg startedAt before p := by
  obtain ⟨leg, hjudged, hagainst, htrace, hsilent⟩ := shown_of_classified hclock hheeds (.inl h)
  obtain ⟨-, -, -, hnothing⟩ := classifyLiveness_wedged (hjudged.classified.trans h)
  have hmeasured : leg.1 = .measured := by
    rw [← treeResult_of_plain hjudged.plain]
    exact hnothing.tree
  refine ⟨hjudged.noLife, ⟨?_, ?_, ?_⟩, hsilent _ hagainst.silent, htrace⟩
  · obtain ⟨pct, hpct, -⟩ := hnothing.cpu
    rw [← hagainst.cpuSampled]
    exact Option.isSome_of_eq_some hpct
  · rw [← hagainst.counted]
    exact Option.isSome_of_eq_some hnothing.descendants
  · rcases hjudged.tree with ⟨-, hskipped⟩ | ⟨sample, hwalked, hleg⟩
    · rw [hskipped] at hmeasured
      cases hmeasured
    · rw [hleg, measured_iff] at hmeasured
      exact ⟨sample, hwalked, hmeasured⟩

theorem shownUnclear_of_indeterminate
    (h : livenessState cfg (after cfg startedAt before) p = .livenessIndeterminate) :
    ShownUnclear cfg startedAt before p := by
  obtain ⟨leg, hjudged, hagainst, htrace, hsilent⟩ := shown_of_classified hclock hheeds (.inr h)
  have hunclear := (unclearWith_iff cfg _ p leg).mp (hjudged.classified.trans h)
  refine ⟨hjudged.noLife, ?_, hsilent _ hagainst.silent, hsilent _ hunclear.bound, htrace⟩
  rcases hunclear.unclear.unknown with hdescendants | htree | hcpu
  · exact .inr (.inl (hagainst.counted.symm.trans hdescendants))
  · rw [treeResult_of_plain hjudged.plain] at htree
    rcases hjudged.tree with ⟨hleg, -⟩ | ⟨sample, hwalked, hleg⟩
    · exact .inr (.inr (.inl hleg))
    · rw [hleg, Ne, measured_iff, Bool.not_eq_true] at htree
      exact .inr (.inr (.inr ⟨sample, hwalked, htree⟩))
  · exact .inl (hagainst.cpuSampled.symm.trans hcpu)

end

/-- **The worker is spared** by a round after these polls: it is written off as idle only after
polls that have all shown it idle, and it is stopped as unclear only after polls that have all
shown that nothing can be told of it. -/
def Spared (cfg : Settings) (startedAt : ℚ) (polls : List Poll) (p : Poll) : Prop :=
  ((poll cfg (after cfg startedAt polls) p).2 = .idleTimeout →
      EachOfLast wedgeConfirmSamples (ShownIdle cfg startedAt) (polls ++ [p])) ∧
    ((poll cfg (after cfg startedAt polls) p).2 = .terminateIndeterminateWorker →
      EachOfLast wedgeConfirmSamples (ShownUnclear cfg startedAt) (polls ++ [p]))

/-- **A worker that shows life is spared**, in every run whose polls heed what they find. -/
theorem live_worker_spared (cfg : Settings) (startedAt : ℚ) (polls : List Poll) (p : Poll)
    (hclock : Machine.Meets (step cfg) Clocked (Watcher.start startedAt) (polls ++ [p]))
    (hheeds : Machine.Meets (step cfg) (Heeds cfg) (Watcher.start startedAt) (polls ++ [p])) :
    Spared cfg startedAt polls p := by
  have hrun : after cfg startedAt (polls ++ [p]) = step cfg (after cfg startedAt polls) p := by
    unfold after
    rw [Machine.run_append]
    rfl
  have hpart : ∀ before q rest, polls ++ [p] = before ++ q :: rest →
      Machine.Meets (step cfg) Clocked (Watcher.start startedAt) (before ++ [q]) ∧
        Heeds cfg (after cfg startedAt before) q := by
    intro before q rest heq
    have hcons : before ++ q :: rest = (before ++ [q]) ++ rest := by simp
    rw [heq, hcons, Machine.meets_append] at hclock hheeds
    rw [Machine.meets_append] at hheeds
    exact ⟨hclock.1, hheeds.1.2.1⟩
  obtain ⟨hidle, hterminate⟩ := streak_of_outcome cfg (after cfg startedAt polls) p
  rw [← hrun] at hidle hterminate
  constructor
  · intro houtcome k hk
    obtain ⟨before, q, rest, heq, hlength, hstate⟩ :=
      Machine.streak (wedgeStreak_step cfg) (s := Watcher.start startedAt) rfl (polls ++ [p])
        (Nat.lt_of_lt_of_le hk (hidle houtcome))
    obtain ⟨hclock', hheeds'⟩ := hpart before q rest heq
    exact ⟨before, q, rest, heq, hlength, shownIdle_of_wedged hclock' hheeds' hstate⟩
  · intro houtcome k hk
    obtain ⟨before, q, rest, heq, hlength, hstate⟩ :=
      Machine.streak (indeterminateStreak_step cfg) (s := Watcher.start startedAt) rfl
        (polls ++ [p]) (Nat.lt_of_lt_of_le hk (hterminate houtcome))
    obtain ⟨hclock', hheeds'⟩ := hpart before q rest heq
    exact ⟨before, q, rest, heq, hlength, shownUnclear_of_indeterminate hclock' hheeds' hstate⟩

end Run

/-! ### Two runs -/

/-- The settings of a watcher that has been given none. -/
def defaultSettings : Settings where
  maxIdleSecs := 900
  cpuEpsilon := 1 / 10
  livenessIndeterminateSecs := none
  pollSecs := 2
  probeInterval := 120
  workerCwdLeg := true
  stayAfterTerminal := false

/-- A poll of a worker whose log stays as it is, and whose tree nothing was written in. -/
def quietPoll (at_ : ℚ) (pgroupCpu : Option ℚ) (traceActive : Bool) : Poll where
  reload := .unchanged
  scan := ⟨10, none, none⟩
  scannedAt := at_
  workerWait := false
  waitMatches := fun _ => false
  foreignOwns := fun _ => false
  loopMono := at_
  nowMono := at_
  traceActive := traceActive
  recheck := ⟨10, none, none⟩
  recheckedAt := at_
  workerAlive := true
  now := at_
  pgroupCpu := pgroupCpu
  liveDescendants := some 0
  treeEvents := none
  walk := ⟨none, true⟩
  rewalk := ⟨none, true⟩
  systemStarved := some false
  seenAt := at_
  waitedAt := at_
  graceAt := at_
  controllerGone := none
  finalMarker := false
  boundaryMarker := false
  clock := ⟨le_refl _, le_refl _, le_refl _, le_refl _, le_refl _, le_refl _⟩

/-- A worker that was idle for 900 s is written off. -/
theorem idle_worker_timed_out :
    (poll defaultSettings (after defaultSettings 0
        [quietPoll 0 (some 0) false, quietPoll 900 (some 0) false])
        (quietPoll 902 (some 0) false)).2 = .idleTimeout ∧
      Spared defaultSettings 0 [quietPoll 0 (some 0) false, quietPoll 900 (some 0) false]
        (quietPoll 902 (some 0) false) := by
  refine ⟨by decide +kernel, live_worker_spared _ _ _ _ (by decide +kernel) ?_⟩
  have hheeds : ∀ s at_, Heeds defaultSettings s (quietPoll at_ (some 0) false) :=
    fun s at_ => ⟨fun h => Bool.false_ne_true h.2.1, fun h => Bool.false_ne_true h.trace⟩
  exact ⟨hheeds _ _, hheeds _ _, hheeds _ _, trivial⟩

/-- **A worker that writes its trace is stopped**, where its CPU cannot be measured. -/
theorem tracing_worker_stopped :
    (poll defaultSettings (after defaultSettings 0 []) (quietPoll 0 none true)).2 = .goesOn ∧
      (poll defaultSettings (after defaultSettings 0 [quietPoll 0 none true])
        (quietPoll 7200 none true)).2 = .goesOn ∧
      (poll defaultSettings (after defaultSettings 0 [quietPoll 0 none true, quietPoll 7200 none true])
        (quietPoll 7202 none true)).2 = .terminateIndeterminateWorker ∧
      ¬ Spared defaultSettings 0 [quietPoll 0 none true, quietPoll 7200 none true]
        (quietPoll 7202 none true) := by
  have hstopped : (poll defaultSettings (after defaultSettings 0
      [quietPoll 0 none true, quietPoll 7200 none true]) (quietPoll 7202 none true)).2 =
        .terminateIndeterminateWorker := by decide +kernel
  refine ⟨by decide +kernel, by decide +kernel, hstopped, fun hspared => ?_⟩
  obtain ⟨before, q, rest, heq, hlength, hshown⟩ := hspared.2 hstopped 0 (by decide)
  rw [List.eq_nil_of_length_eq_zero hlength] at heq
  have hlast : quietPoll 7202 none true = q := (List.append_inj' heq rfl).2 |> List.singleton_inj.mp
  have htrace := hshown.trace
  rw [← hlast] at htrace
  cases htrace

end GoalFlight.Watch
