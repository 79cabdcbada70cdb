import GoalFlight.Library.Machine
import GoalFlight.Watch.Liveness
import GoalFlight.Watch.Markers

/-!
# The watcher: polls of a worker

One round of the watcher's loop: the log is read, the probes are asked, the worker is classified,
two streaks count how often it has been found idle or unclear, and what the markers in the log say
comes before either verdict.
-/

namespace GoalFlight.Watch

/-- The settings of a watcher. -/
structure Settings where
  maxIdleSecs : ℚ
  cpuEpsilon : ℚ
  livenessIndeterminateSecs : Option ℚ
  pollSecs : ℚ
  /-- The interval of `_ThrottledProbe`. -/
  probeInterval : ℚ
  /-- The tree of the worker is its own. -/
  workerCwdLeg : Bool
  stayAfterTerminal : Bool

/-- `WEDGE_CONFIRM_SAMPLES`. -/
def wedgeConfirmSamples : ℕ := 2

/-- `POST_TERMINAL_EXIT_GRACE_SECS`. -/
def postTerminalExitGraceSecs : ℚ := 6

/-- `WORKER_WAIT_ARM_GRACE_SECS`. -/
def workerWaitArmGraceSecs : ℚ := 1

/-- `REPLY_WAIT_MARKER_KINDS`. -/
def isReplyWaitKind : Kind → Bool
  | .userNeed | .userConfirm => true
  | _ => false

/-- `TreeMtimeSample`. -/
structure TreeMtimeSample where
  newest : Option ℚ
  available : Bool

/-- The prompt file, when it is read again. -/
inductive PromptReload
  | unchanged
  | loaded
  | failed

/-- What a scan of the log says. -/
structure Scan where
  size : ℕ
  terminal : Option Marker
  terminalObservedSize : Option ℕ

/-- What is found out when the controller is gone: whether the worker is still there, and whether
the log has a final marker. -/
structure ControllerGone where
  workerAlive : Bool
  reconciled : Bool

/-- **What a poll finds out.** -/
structure Poll where
  reload : PromptReload
  /-- `tail_scanner.scan`. -/
  scan : Scan
  scannedAt : ℚ
  /-- `worker_wait`: the worker waits for a reply. -/
  workerWait : Bool
  /-- `_worker_wait_marker_matches`, with the worker's own wait. -/
  waitMatches : Marker → Bool
  /-- `_foreign_wait_owns_question_marker`, where the wait could be read. -/
  foreignOwns : Marker → Bool
  loopMono : ℚ
  nowMono : ℚ
  /-- `trace_sample.get("trace_active")`. -/
  traceActive : Bool
  /-- The scans of a stability recheck, combined. -/
  recheck : Scan
  recheckedAt : ℚ
  /-- `worker_alive`. -/
  workerAlive : Bool
  /-- `time.time()`. -/
  now : ℚ
  /-- `pgroup_cpu_pct`, `live_descendant_count`. -/
  pgroupCpu : Option ℚ
  liveDescendants : Option ℕ
  /-- `tree_monitor.snapshot`. -/
  treeEvents : Option TreeMtimeSample
  /-- A walk of the tree, and a second one in the same poll. -/
  walk : TreeMtimeSample
  rewalk : TreeMtimeSample
  /-- `system_starved`. -/
  systemStarved : Option Bool
  seenAt : ℚ
  waitedAt : ℚ
  graceAt : ℚ
  controllerGone : Option ControllerGone
  /-- `_final_terminal_marker` finds one: of a dead worker, and once more where its trace is
  active. -/
  finalMarker : Bool
  boundaryMarker : Bool
  /-- The clock does not run backwards. -/
  clock : scannedAt ≤ loopMono ∧ loopMono ≤ nowMono ∧ nowMono ≤ recheckedAt ∧
    recheckedAt ≤ seenAt ∧ seenAt ≤ waitedAt ∧ waitedAt ≤ graceAt

/-- What the watcher keeps between polls. -/
structure Watcher where
  lastSize : Option ℕ
  lastChange : ℚ
  wedgeStreak : ℕ
  indeterminateStreak : ℕ
  postTerminalQuietStreak : ℕ
  /-- `idle_tree_probe`: when a walk was made, and what it found. -/
  idleTreeProbe : Option (ℚ × TreeMtimeSample)
  terminalSeen : Option Marker
  terminalSeenAt : Option ℚ
  terminalSeenSize : Option ℕ
  /-- The marker and the offset of `last_discarded_terminal_evidence`. -/
  lastDiscarded : Option (Marker × ℕ)
  /-- The clock at the end of the last poll. -/
  endedAt : ℚ

/-- A watcher starts. -/
def Watcher.start (startedAt : ℚ) : Watcher where
  lastSize := none
  lastChange := startedAt
  wedgeStreak := 0
  indeterminateStreak := 0
  postTerminalQuietStreak := 0
  idleTreeProbe := none
  terminalSeen := none
  terminalSeenAt := none
  terminalSeenSize := none
  lastDiscarded := none
  endedAt := startedAt

/-- What a poll comes to. -/
inductive Outcome
  | goesOn
  | idleTimeout
  | inconclusiveTimeout
  | terminateIndeterminateWorker
  | otherExit
deriving DecidableEq

/-! ### The log -/

section

variable (cfg : Settings) (s : Watcher) (p : Poll)

/-- A prompt that has changed withdraws what the log was taken to say. -/
def reloadPrompt : Watcher :=
  match p.reload with
  | .unchanged => s
  | .loaded => { s with terminalSeen := none, terminalSeenAt := none }
  | .failed => { s with terminalSeenSize := none }

/-- The size of the log, where it has changed. -/
def noteSize (s : Watcher) (size : ℕ) (at_ : ℚ) : Watcher :=
  if some size ≠ s.lastSize then { s with lastSize := some size, lastChange := at_ } else s

/-- Up to the silence of the log. -/
def listen : Watcher :=
  let s := noteSize (reloadPrompt s p) p.scan.size p.scannedAt
  if p.workerWait then { s with lastChange := p.loopMono } else s

/-- `seconds_since_event`. -/
def secondsSinceEvent : ℚ := p.nowMono - (listen s p).lastChange

/-- The stability recheck of a terminal marker. -/
def recheckStability : Watcher :=
  if p.scan.terminal.isSome then noteSize (listen s p) p.recheck.size p.recheckedAt
  else listen s p

/-- The scan that counts. -/
def Poll.lastScan : Scan := if p.scan.terminal.isSome then p.recheck else p.scan

/-- `_discarded_terminal_candidate_matches`. -/
def discardedTerminalCandidateMatches : Bool :=
  match s.lastDiscarded, p.lastScan.terminal, p.lastScan.terminalObservedSize with
  | some evidence, some marker, some offset => evidence = (marker, offset)
  | _, _, _ => false

/-- `terminal`. -/
def terminalCandidate : Option Marker :=
  if discardedTerminalCandidateMatches s p then none else p.lastScan.terminal

/-! ### Liveness -/

/-- `idle_window_expired`. -/
def idleWindowExpired : Bool :=
  p.workerAlive && decide (0 < cfg.maxIdleSecs ∧ cfg.maxIdleSecs ≤ secondsSinceEvent s p)

/-- `cpu_pct`. -/
def cpuPct : Option ℚ :=
  if p.workerAlive then if idleWindowExpired cfg s p then p.pgroupCpu else none else some 0

/-- The children and the tree are looked at. -/
def looksFurther : Bool :=
  idleWindowExpired cfg s p &&
    (cpuConfirmedIdle (cpuPct cfg s p) cfg.cpuEpsilon || cpuPct cfg s p = none)

/-- `live_descendants`. -/
def liveDescendants : Option ℕ := if looksFurther cfg s p then p.liveDescendants else none

/-- `_idle_tree_leg`. -/
def idleTreeLeg (sample : TreeMtimeSample) : TreeProbe × Option ℚ :=
  if sample.available then
    match sample.newest with
    | none => (.measured, some cfg.maxIdleSecs)
    | some newest => (.measured, some (max 0 (p.now - newest)))
  else (.unavailable, none)

/-- What the first look at the tree comes to: the answer, the walk that it made, whether the answer
is of no walk of this poll, and what the probe keeps. -/
structure TreeLook where
  leg : TreeProbe × Option ℚ
  walked : Option TreeMtimeSample
  cached : Bool
  kept : Option (ℚ × TreeMtimeSample)

/-- The first look at the tree. -/
def lookAtTree : TreeLook :=
  let fresh : TreeLook :=
    ⟨idleTreeLeg cfg p p.walk, some p.walk, false, some (p.nowMono, p.walk)⟩
  if looksFurther cfg s p then
    if !(liveDescendants cfg s p).any (fun n => 0 < n) && cfg.workerCwdLeg then
      match p.treeEvents, s.idleTreeProbe with
      | some sample, kept => ⟨idleTreeLeg cfg p sample, none, true, kept⟩
      | none, some (walkedAt, sample) =>
        if cfg.probeInterval ≤ p.nowMono - walkedAt then fresh
        else ⟨idleTreeLeg cfg p sample, none, true, some (walkedAt, sample)⟩
      | none, none => fresh
    else ⟨(.skipped, none), none, false, s.idleTreeProbe⟩
  else ⟨(.skipped, none), none, false, none⟩

/-- `low_power_relax`. -/
def lowPowerRelax : Bool :=
  idleWindowExpired cfg s p && cpuConfirmedIdle (cpuPct cfg s p) cfg.cpuEpsilon &&
    p.systemStarved ≠ some false

/-- `indeterminate_timeout_s`. -/
def indeterminateTimeoutS : ℚ :=
  resolveIndeterminateTimeoutS (some cfg.maxIdleSecs) cfg.livenessIndeterminateSecs

/-- The probes, with this answer for the tree. -/
def probesWith (leg : TreeProbe × Option ℚ) : Probes :=
  ⟨cpuPct cfg s p, liveDescendants cfg s p, leg.1, leg.2⟩

/-- `classify_liveness`, with this answer for the tree. -/
def classifyWith (leg : TreeProbe × Option ℚ) : LivenessState :=
  classifyLiveness p.workerAlive (some (secondsSinceEvent s p))
    ⟨some cfg.maxIdleSecs, cfg.cpuEpsilon⟩ (lowPowerRelax cfg s p) (probesWith cfg s p leg)
    (some (indeterminateTimeoutS cfg))

/-- A trace that is written vetoes `wedged`. -/
def traceVeto (state : LivenessState) : LivenessState :=
  if state = .wedged ∧ p.traceActive then .runningViaTrace else state

/-- `intentionally_waiting`. -/
def intentionallyWaiting : Bool := p.workerWait && p.workerAlive

/-- What the liveness section comes to: the state, the last walk of the tree that it made, and
what the probe keeps. -/
structure Judgement where
  state : LivenessState
  walked : Option TreeMtimeSample
  kept : Option (ℚ × TreeMtimeSample)

/-- **The liveness section.**  An answer that is of no walk of this poll is confirmed by one before
it counts against the worker. -/
def judge : Judgement :=
  let look := lookAtTree cfg s p
  let state :=
    if intentionallyWaiting p then .intentionallyBlocked
    else traceVeto p (classifyWith cfg s p look.leg)
  if look.cached ∧ (state = .wedged ∨ state = .livenessIndeterminate) then
    ⟨traceVeto p (classifyWith cfg s p (idleTreeLeg cfg p p.rewalk)), some p.rewalk,
      some (p.nowMono, p.rewalk)⟩
  else ⟨state, look.walked, look.kept⟩

/-- `liveness_state`. -/
def livenessState : LivenessState := (judge cfg s p).state

/-- The streaks. -/
def countStreaks : Watcher :=
  let heard := recheckStability s p
  let heard := { heard with idleTreeProbe := (judge cfg s p).kept, endedAt := p.graceAt }
  match livenessState cfg s p with
  | .wedged => { heard with wedgeStreak := s.wedgeStreak + 1, indeterminateStreak := 0 }
  | .livenessIndeterminate =>
    { heard with wedgeStreak := 0, indeterminateStreak := s.indeterminateStreak + 1 }
  | _ => { heard with wedgeStreak := 0, indeterminateStreak := 0 }

/-! ### Markers -/

/-- A candidate that is new is `terminal_seen`. -/
def noteTerminal (counted : Watcher) : Watcher :=
  match terminalCandidate counted p with
  | none => counted
  | some terminal =>
    if some terminal ≠ counted.terminalSeen then
      { counted with
        terminalSeen := some terminal
        terminalSeenAt := some p.seenAt
        terminalSeenSize := some (p.lastScan.terminalObservedSize.getD p.lastScan.size) }
    else counted

/-- `terminal_seen`, as the scan and the waits leave it: a question that a wait asks is none. -/
def seeTerminal (counted : Watcher) : Watcher :=
  let noted := noteTerminal p counted
  let asked := if intentionallyWaiting p then p.waitMatches else p.foreignOwns
  if noted.terminalSeen.any asked then
    { noted with terminalSeen := none, terminalSeenAt := none, terminalSeenSize := none }
  else noted

/-- `post_terminal_wait`. -/
def postTerminalWait (s : Watcher) : Bool :=
  (s.terminalSeen.any fun marker => marker.kind.isSuccess) && cfg.stayAfterTerminal &&
    p.workerAlive

/-- The actions of `_post_terminal_candidate_action`. -/
inductive CandidateAction
  | pending
  | discard
  | terminalize

/-- `_post_terminal_candidate_action`. -/
def postTerminalCandidateAction (workerAlive tailGrew graceExpired idleConfirmed : Bool) :
    CandidateAction :=
  if !workerAlive then .terminalize
  else if !graceExpired then .pending
  else if tailGrew then .discard
  else if idleConfirmed then .terminalize
  else .pending

/-- `reply_wait_arm_grace`. -/
def replyWaitArmGrace (s : Watcher) : Bool :=
  (s.terminalSeen.any fun marker => isReplyWaitKind marker.kind) && p.workerAlive &&
    s.terminalSeenAt.any fun seenAt =>
      p.graceAt - seenAt < max workerWaitArmGraceSecs (cfg.pollSecs * 2)

/-- What a dead worker comes to. -/
def afterDeath : Outcome :=
  if p.finalMarker then .otherExit
  else if p.traceActive then if p.boundaryMarker then .otherExit else .goesOn
  else if secondsSinceEvent s p < max (cfg.pollSecs * 2) (1 / 5) then .goesOn
  else .otherExit

/-- The verdicts on a live worker. -/
def verdict (counted : Watcher) (waits : Bool) : Outcome :=
  if livenessState cfg s p = .wedged ∧ wedgeConfirmSamples ≤ counted.wedgeStreak ∧ !waits then
    if counted.lastDiscarded.isSome then .inconclusiveTimeout else .idleTimeout
  else if livenessState cfg s p = .livenessIndeterminate ∧
      wedgeConfirmSamples ≤ counted.indeterminateStreak then .terminateIndeterminateWorker
  else .goesOn

/-- `controller_dead`: the worker goes on on its own, or the watcher ends. -/
def afterController (gone : ControllerGone) : Outcome :=
  if gone.reconciled && (!gone.workerAlive || p.traceActive) then .otherExit
  else if gone.workerAlive then .goesOn else .otherExit

/-- `post_terminal_quiet_streak`. -/
def countQuiet (counted : Watcher) : Watcher :=
  { counted with
    postTerminalQuietStreak :=
      if postTerminalWait cfg p counted ∧ cpuConfirmedIdle (cpuPct cfg s p) cfg.cpuEpsilon ∧
          0 < cfg.maxIdleSecs ∧ cfg.maxIdleSecs ≤ secondsSinceEvent s p then
        counted.postTerminalQuietStreak + 1
      else 0 }

/-- `post_terminal_action`. -/
def postTerminalAction (counted : Watcher) : CandidateAction :=
  if postTerminalWait cfg p counted then
    postTerminalCandidateAction p.workerAlive
      (counted.terminalSeenSize.any fun size => size < p.lastScan.size)
      (counted.terminalSeenAt.any fun seenAt =>
        postTerminalExitGraceSecs ≤ max 0 (p.waitedAt - seenAt))
      (wedgeConfirmSamples ≤ counted.postTerminalQuietStreak)
  else .pending

/-- The log grew behind the marker, so that it was no last word. -/
def discardCandidate (counted : Watcher) : Watcher :=
  { counted with
    lastDiscarded :=
      counted.terminalSeen.map fun marker =>
        (marker, counted.terminalSeenSize.getD p.lastScan.size)
    terminalSeen := none
    terminalSeenAt := none
    terminalSeenSize := none
    wedgeStreak := 0
    indeterminateStreak := 0
    postTerminalQuietStreak := 0 }

/-- **One round of the loop.** -/
def poll : Watcher × Outcome :=
  let counted := countQuiet cfg s p (seeTerminal p (countStreaks cfg s p))
  let waits := postTerminalWait cfg p counted
  match postTerminalAction cfg p counted with
  | .discard => (discardCandidate p counted, .goesOn)
  | .terminalize => (counted, .inconclusiveTimeout)
  | .pending =>
    if counted.terminalSeen.isSome && !waits && !replyWaitArmGrace cfg p counted then
      (counted, .otherExit)
    else
      match p.controllerGone with
      | some gone => (counted, afterController p gone)
      | none =>
        if !p.workerAlive then (counted, afterDeath cfg s p)
        else (counted, verdict cfg s p counted waits)

end

end GoalFlight.Watch
