import GoalFlight.Fleet.History

/-!
# Fleet: a lock is freed only after proof

In a run whose steps are careful, every lock of the dispatch that is freed was the dispatch's own,
its mirror was not stale, and there was proof of the end; and what waits for salvage stays so.

* `Store.Kept` is the invariant: the mirror reads, its notes are not ahead of it, and what the
  history says was written last is what it has; a verdict that the worker is dead was preceded by a
  dead answer and a clean worktree, and so was every end that a watch has confirmed.
* The lemmas go along the code: an event, a verdict, a status that is taken in, a round of a watch,
  a reconciliation, a release.
-/

namespace GoalFlight.Fleet

open Json Relational
open GoalFlight.Capacity (successTerminalRecordStates failureTerminalRecordStates
  wedgedTerminalRecordStates)
open GoalFlight.Dispatch (textOf salvageNeededStates isTerminalState)

variable {w : Written} {notes : DispatchMeta}
variable {e : Event} {s : Store} {history : List Event}
variable {isoSeconds : String → Option ℤ} {tokenText : ℕ → String} {target : Target}

/-! ### The invariant -/

/-- What a watch has confirmed: a status of an end, that is a success or was followed by a check of
the worktree; or the verdict that the worker is dead. -/
def EndProven (history : List Event) (w : Written) : Prop :=
  (w.verdict = false ∧ w.state.any isTerminalState = true ∧
      w.state.any (· ∈ salvageNeededStates) = false ∧
      (w.state.any (· ∈ successTerminalRecordStates) = true ∨ checkedAccepted history = true)) ∨
    (w.verdict = true ∧ w.state = some "worker_dead")

variable (isoSeconds target) in
/-- **The invariant.** -/
structure Store.Kept (s : Store) : Prop where
  readable : s.file.Readable
  stopped : s.notes.mirrorStale = true → s.notes.mirrorIngestStopped = true
  behind : ∀ r, readStatusMirror isoSeconds s.file none = .ok r →
    ∀ n ∈ s.notes.lastMirrorSeq, n ≤ r.seq
  written : mirrorState isoSeconds s.file = (lastWritten s.history).bind Written.state
  verdicts : ∀ w, lastWritten s.history = some w → w.verdict = true →
    w.state = some "worker_dead" ∨ w.state = some "salvage_needed"
  listed : ∀ w, lastWritten s.history = some w → listed w.state = true
  salvage : salvageRecorded s.history = true → mirrorState isoSeconds s.file = some "salvage_needed"
  dead : lastWritten s.history = some ⟨some "worker_dead", true⟩ →
    answeredDead s.history = true ∧ checkedDead s.history = true ∧
      (lastAccepted s.history).any isTerminalState = false ∧ s.notes.launchUnconfirmed = false
  confirmed : confirmedLast s.history = true →
    ∃ w, lastWritten s.history = some w ∧ EndProven s.history w
  fresh : (∃ p, s.history.head? = some (.confirmed p)) → s.notes.mirrorStale = false
  rightly : rightly target.dispatchId s.history = true

theorem Store.Kept.locks (h : s.Kept isoSeconds target) (locks : LockFiles) :
    ({ s with locks := locks } : Store).Kept isoSeconds target :=
  ⟨h.readable, h.stopped, h.behind, h.written, h.verdicts, h.listed, h.salvage, h.dead, h.confirmed,
    h.fresh, h.rightly⟩

/-- **Notes** that are no further than the mirror, and say that it is stale only where they did or
where no watch has just confirmed it. -/
theorem Store.Kept.mark (h : s.Kept isoSeconds target) {f : DispatchMeta → DispatchMeta}
    (hstopped : (f s.notes).mirrorStale = true → (f s.notes).mirrorIngestStopped = true)
    (hstale : (f s.notes).mirrorStale = true → s.notes.mirrorStale = true ∨
      ∀ p, s.history.head? ≠ some (.confirmed p))
    (hseq : ∀ n ∈ (f s.notes).lastMirrorSeq,
      n ∈ s.notes.lastMirrorSeq ∨ ∀ q ∈ mirrorSeq isoSeconds s.file, n = q)
    (hlaunch : (f s.notes).launchUnconfirmed = true → s.notes.launchUnconfirmed = true) :
    (s.mark f).Kept isoSeconds target := by
  refine ⟨h.readable, hstopped, ?_, h.written, h.verdicts, h.listed, h.salvage, ?_, h.confirmed, ?_,
    h.rightly⟩
  · intro r hr n hn
    rcases hseq n hn with hold | hnew
    · exact h.behind r hr n hold
    · have hfile : readStatusMirror isoSeconds s.file none = .ok r := hr
      refine le_of_eq (hnew r.seq ?_)
      unfold mirrorSeq
      rw [hfile]
      rfl
  · intro hdead
    obtain ⟨hanswered, hchecked, haccepted, hconfirmed⟩ := h.dead hdead
    refine ⟨hanswered, hchecked, haccepted, ?_⟩
    rw [← Bool.not_eq_true] at hconfirmed ⊢
    exact fun hlaunched => hconfirmed (hlaunch hlaunched)
  · rintro ⟨p, hhead⟩
    have hfresh := h.fresh ⟨p, hhead⟩
    rw [← Bool.not_eq_true] at hfresh ⊢
    intro hs
    rcases hstale hs with hold | hnone
    · exact hfresh hold
    · exact hnone p hhead

/-- Nothing is written over the mirror. -/
def Event.isWritten : Event → Bool
  | .accepted _ | .verdict _ => true
  | _ => false

section

variable (h : e.isWritten = false)
include h

theorem lastWritten_cons (history : List Event) :
    lastWritten (e :: history) = lastWritten history := by
  cases e <;> first | rfl | cases h

theorem lastAccepted_cons (history : List Event) :
    lastAccepted (e :: history) = lastAccepted history := by
  cases e <;> first | rfl | cases h

theorem salvageRecorded_cons (history : List Event) :
    salvageRecorded (e :: history) = salvageRecorded history := by
  cases e with
  | accepted state => cases h
  | verdict state => cases h
  | _ => simp [salvageRecorded]

theorem checkedAccepted_cons (hchecked : checkedAccepted history = true) :
    checkedAccepted (e :: history) = true := by
  cases e with
  | accepted state => cases h
  | checked answer => cases answer <;> first | rfl | exact hchecked
  | _ => exact hchecked

theorem EndProven.cons (hproven : EndProven history w) :
    EndProven (e :: history) w := by
  rcases hproven with ⟨hstatus, hend, hsalvage, hsuccess | hchecked⟩ | hdead
  · exact .inl ⟨hstatus, hend, hsalvage, .inl hsuccess⟩
  · exact .inl ⟨hstatus, hend, hsalvage, .inr (checkedAccepted_cons h hchecked)⟩
  · exact .inr hdead

end

theorem dead_cons (h : e ≠ .answered .alive)
    (hdead : answeredDead history = true ∧ checkedDead history = true) :
    answeredDead (e :: history) = true ∧ checkedDead (e :: history) = true := by
  obtain ⟨hanswered, hchecked⟩ := hdead
  cases e with
  | answered answer =>
    cases answer with
    | alive => exact absurd rfl h
    | dead => exact ⟨rfl, hchecked⟩
    | unavailable => exact ⟨hanswered, hchecked⟩
  | checked answer =>
    cases answer with
    | clean => exact ⟨hanswered, by simp [checkedDead, hanswered]⟩
    | _ => exact ⟨hanswered, hchecked⟩
  | _ => exact ⟨hanswered, hchecked⟩

section

variable (h : s.Kept isoSeconds target)
include h

/-- **An event that writes nothing**: it is allowed; the process is not found alive after a verdict
that it is dead; and a confirmation has its proof. -/
theorem Store.Kept.note (hwritten : e.isWritten = false)
    (hallowed : allowed target.dispatchId s.history e = true)
    (halive : e = .answered .alive → lastWritten s.history ≠ some ⟨some "worker_dead", true⟩)
    (hconfirmed : ∀ p, e = .confirmed p → s.notes.mirrorStale = false ∧
      ∃ w, lastWritten s.history = some w ∧ EndProven s.history w) :
    (s.note e).Kept isoSeconds target where
  readable := h.readable
  stopped := h.stopped
  behind := h.behind
  written := by
    show _ = (lastWritten (e :: s.history)).bind _
    rw [lastWritten_cons hwritten]
    exact h.written
  verdicts := by
    show ∀ w, lastWritten (e :: s.history) = some w → _
    rw [lastWritten_cons hwritten]
    exact h.verdicts
  listed := by
    show ∀ w, lastWritten (e :: s.history) = some w → _
    rw [lastWritten_cons hwritten]
    exact h.listed
  salvage := by
    show salvageRecorded (e :: s.history) = true → _
    rw [salvageRecorded_cons hwritten]
    exact h.salvage
  dead := by
    show lastWritten (e :: s.history) = _ → answeredDead (e :: s.history) = true ∧
      checkedDead (e :: s.history) = true ∧ (lastAccepted (e :: s.history)).any _ = false ∧ _
    rw [lastWritten_cons hwritten, lastAccepted_cons hwritten]
    intro hdead
    obtain ⟨hanswered, hchecked, hrest⟩ := h.dead hdead
    obtain ⟨hanswered', hchecked'⟩ := dead_cons (fun he => halive he hdead) ⟨hanswered, hchecked⟩
    exact ⟨hanswered', hchecked', hrest⟩
  confirmed := by
    show confirmedLast (e :: s.history) = true → ∃ w, lastWritten (e :: s.history) = some w ∧ _
    rw [lastWritten_cons hwritten]
    intro hlast
    have hproof : ∃ w, lastWritten s.history = some w ∧ EndProven s.history w := by
      cases e with
      | confirmed p => exact (hconfirmed p rfl).2
      | accepted state => cases hwritten
      | verdict state => cases hwritten
      | _ => exact h.confirmed hlast
    obtain ⟨w, hw, hproven⟩ := hproof
    exact ⟨w, hw, hproven.cons hwritten⟩
  fresh := by
    rintro ⟨p, hhead⟩
    exact (hconfirmed p (Option.some.inj hhead)).1
  rightly := by
    show (allowed _ s.history e && Fleet.rightly _ s.history) = true
    rw [hallowed, h.rightly]
    rfl

/-! ### What is written over the mirror -/

/-- **A write over the mirror**, where none waits for salvage. -/
theorem Store.Kept.overwrite {s' : Store} (he : e.isWritten = true)
    (hhistory : s'.history = e :: s.history) (hw : lastWritten (e :: s.history) = some w)
    (hreadable : s'.file.Readable) (hstate : mirrorState isoSeconds s'.file = w.state)
    (hverdict : w.verdict = true → w.state = some "worker_dead" ∨ w.state = some "salvage_needed")
    (hlisted : Fleet.listed w.state = true) (hsalvage : salvageRecorded s.history = false)
    (hdead : w = ⟨some "worker_dead", true⟩ → answeredDead s.history = true ∧
      checkedDead s.history = true ∧ (lastAccepted s.history).any isTerminalState = false ∧
        s'.notes.launchUnconfirmed = false)
    (hseq : ∀ n ∈ s'.notes.lastMirrorSeq, some n = mirrorSeq isoSeconds s'.file)
    (hstale : s'.notes.mirrorStale = true → s'.notes.mirrorIngestStopped = true) :
    s'.Kept isoSeconds target where
  readable := hreadable
  stopped := hstale
  behind := by
    intro r hr n hn
    have hnew := hseq n hn
    unfold mirrorSeq at hnew
    rw [hr] at hnew
    exact le_of_eq (Option.some.inj hnew)
  written := by rw [hstate, hhistory, hw, Option.bind_some]
  verdicts := by
    rw [hhistory, hw]
    rintro w' hw' hverdict'
    cases hw'
    exact hverdict hverdict'
  listed := by
    rw [hhistory, hw]
    rintro w' hw'
    cases hw'
    exact hlisted
  salvage := by
    rw [hhistory]
    intro hrecorded
    have hnew : e = .verdict "salvage_needed" ∨ e = .accepted (some "salvage_needed") := by
      unfold salvageRecorded at hrecorded hsalvage
      rw [List.any_cons, hsalvage, Bool.or_false, Bool.or_eq_true, decide_eq_true_eq,
        decide_eq_true_eq] at hrecorded
      exact hrecorded
    rw [hstate]
    rcases hnew with rfl | rfl <;> exact (congrArg Written.state (Option.some.inj hw)).symm
  dead := by
    rw [hhistory, hw]
    intro hw'
    have hwd := Option.some.inj hw'
    obtain ⟨hanswered, hchecked, haccepted, hlaunch⟩ := hdead hwd
    rw [hwd] at hw
    cases e with
    | verdict state => exact ⟨hanswered, hchecked, haccepted, hlaunch⟩
    | accepted state => cases hw
    | _ => cases he
  confirmed := by
    rw [hhistory]
    intro hlast
    cases e with
    | verdict state => cases hlast
    | accepted state => cases hlast
    | _ => cases he
  fresh := by
    rw [hhistory]
    rintro ⟨p, hhead⟩
    cases hhead
    cases he
  rightly := by
    rw [hhistory]
    have hallowed : allowed target.dispatchId s.history e = true := by
      cases e with
      | verdict state => simp [allowed, hsalvage]
      | accepted state => simp [allowed, hsalvage]
      | _ => cases he
    show (allowed _ s.history e && Fleet.rightly _ s.history) = true
    rw [hallowed, h.rightly]
    rfl

theorem Store.Kept.salvageRecorded_eq_false
    (hstate : mirrorState isoSeconds s.file ≠ some "salvage_needed") :
    salvageRecorded s.history = false := by
  rw [← Bool.not_eq_true]
  exact fun hrecorded => hstate (h.salvage hrecorded)

theorem Store.Kept.writeVerdict_eq (x : Answers) (v : Verdict) :
    ∃ file, s.writeVerdict isoSeconds target x v =
        some ({ s with file := file }.note (.verdict v.state)) ∧
      file.Readable ∧ mirrorState isoSeconds file = some v.state ∧
      mirrorSeq isoSeconds file = some (verdictSeq isoSeconds s) := by
  obtain ⟨r, hr, hseq, hstate⟩ := readStatusMirror_verdict h.readable isoSeconds target.dispatchId
    x.now x.source v
  refine ⟨_, ?_, readable_writeStatus h.readable x.source (normal_verdict target.dispatchId x.now
    (h.readable.prior_nonneg isoSeconds) v), ?_, ?_⟩
  · unfold Store.writeVerdict
    rw [writeVerdict_eq_some h.readable]
    rfl
  · unfold mirrorState remoteStateFromMirror
    rw [hr]
    simp [Except.toOption, hstate, textOf]
  · unfold mirrorSeq
    rw [hr]
    simp [Except.toOption, hseq, verdictSeq]

end

theorem listed_worker_dead : listed (some "worker_dead") = true := by decide +kernel

theorem listed_salvage_needed : listed (some "salvage_needed") = true := by decide +kernel

/-- **The verdict that a worktree is to be salvaged.** -/
theorem Store.Kept.writeSalvageNeededMirror (h : s.Kept isoSeconds target)
    (hstate : mirrorState isoSeconds s.file ≠ some "salvage_needed") (x : Answers)
    (path porcelain error : Option String) (reason : String) :
    ∃ s', writeSalvageNeededMirror isoSeconds target s x path porcelain error reason = some s' ∧
      s'.Kept isoSeconds target := by
  obtain ⟨file, hwritten, hreadable, hnew, hseq⟩ :=
    h.writeVerdict_eq x (.salvageNeeded reason path porcelain error)
  refine ⟨_, by unfold Fleet.writeSalvageNeededMirror; rw [hwritten]; rfl, ?_⟩
  refine h.overwrite (e := .verdict "salvage_needed") (w := ⟨some "salvage_needed", true⟩) rfl rfl rfl
    hreadable hnew (fun _ => .inr rfl) listed_salvage_needed (h.salvageRecorded_eq_false hstate)
    (fun hw => absurd (congrArg Written.state hw) (by decide)) ?_ (nofun)
  intro n hn
  cases hn
  exact hseq.symm

theorem lastAccepted_of_unwritten (h : lastWritten history = none) :
    lastAccepted history = none := by
  induction history with
  | nil => rfl
  | cons e history ih =>
    cases e with
    | accepted state => cases h
    | verdict state => cases h
    | _ => exact ih h

theorem lastAccepted_of_status (h : lastWritten history = some w)
    (hstatus : w.verdict = false) :
    lastAccepted history = w.state := by
  induction history with
  | nil => cases h
  | cons e history ih =>
    cases e with
    | accepted state =>
      cases h
      rfl
    | verdict state =>
      cases h
      cases hstatus
    | _ => exact ih h

section

variable (h : s.Kept isoSeconds target)
include h

/-- **The verdict that the worker is dead**, after a dead answer and a check of the worktree. -/
theorem Store.Kept.writeWorkerDeadMirror
    (hstate : (mirrorState isoSeconds s.file).any isTerminalState = false)
    (hanswered : answeredDead s.history = true) (hchecked : checkedDead s.history = true)
    (hlaunch : s.notes.launchUnconfirmed = false) (x : Answers) :
    ∃ s', writeWorkerDeadMirror isoSeconds target s x = some s' ∧ s'.Kept isoSeconds target ∧
      s'.notes.mirrorStale = false ∧
      lastWritten s'.history = some ⟨some "worker_dead", true⟩ := by
  obtain ⟨file, hwritten, hreadable, hnew, hseq⟩ := h.writeVerdict_eq x .workerDead
  refine ⟨_, by unfold Fleet.writeWorkerDeadMirror; rw [hwritten]; rfl, ?_, rfl, rfl⟩
  refine h.overwrite (e := .verdict "worker_dead") (w := ⟨some "worker_dead", true⟩) rfl rfl rfl
    hreadable hnew (fun _ => .inl rfl) listed_worker_dead (h.salvageRecorded_eq_false ?_)
    (fun _ => ⟨hanswered, hchecked, ?_, hlaunch⟩) ?_ (nofun)
  · intro hsalvage
    rw [hsalvage] at hstate
    exact absurd hstate (by decide +kernel)
  · cases hw : lastWritten s.history with
    | none =>
      rw [lastAccepted_of_unwritten hw]
      rfl
    | some w =>
      have hheld := h.written
      rw [hw, Option.bind_some] at hheld
      cases hverdict : w.verdict with
      | false => rwa [lastAccepted_of_status hw hverdict, ← hheld]
      | true =>
        rcases h.verdicts w hw hverdict with hw' | hw' <;> rw [hheld, hw'] at hstate <;>
          exact absurd hstate (by decide +kernel)
  · intro n hn
    cases hn
    exact hseq.symm

/-! ### A status is taken in -/

theorem Store.Kept.askIdentity
    (hdead : lastWritten s.history ≠ some ⟨some "worker_dead", true⟩) (x : Answers) :
    (s.askIdentity x).Kept isoSeconds target := by
  have hasked := h.note (e := .answered x.identity) rfl rfl (fun _ => hdead) (fun p hp => by cases hp)
  exact hasked.mark hasked.stopped .inl (fun n hn => .inl hn) id

/-- **A status is ingested.** -/
theorem Store.Kept.ingested {content : Option Document} {r : Reading}
    (hin : ingest isoSeconds target.dispatchId s.file content = .ingested r)
    (hcareful : ∀ incoming ∈ placed isoSeconds target.dispatchId content,
      Fleet.listed (storedState incoming.reading) = true ∧
        (mirrorState isoSeconds s.file = some "salvage_needed" →
          ∀ held ∈ (readStatusMirror isoSeconds s.file none).toOption, Behind incoming held))
    (source : EpochSource) :
    let file := writeStatus s.file source r.payload
    (({ s with file := file }.note (.accepted (mirrorState isoSeconds file))).mark
        (markIngested r.seq)).Kept isoSeconds target ∧ mirrorSeq isoSeconds file = some r.seq := by
  obtain ⟨m, hm⟩ := normalize_of_ingest hin
  obtain ⟨named, hplaced, hahead⟩ := (ingest_eq_ingested_iff h.readable).mp hin
  obtain ⟨hlisted, hsalvage⟩ := hcareful _ hplaced
  obtain ⟨r', hr', hseq, hstate⟩ := readStatusMirror_writeStatus h.readable isoSeconds source
    (normal_of_normalizeStatusPayload hm)
  rw [value_seq_of_normalizeStatusPayload hm] at hseq
  have hstored : mirrorState isoSeconds (writeStatus s.file source r.payload) = storedState r := by
    unfold mirrorState remoteStateFromMirror storedState
    rw [hr', ← hstate]
    rfl
  have hnumber : mirrorSeq isoSeconds (writeStatus s.file source r.payload) = some r.seq := by
    unfold mirrorSeq
    rw [hr', Value.int.inj hseq]
    rfl
  refine ⟨h.overwrite (e := .accepted (mirrorState isoSeconds (writeStatus s.file source r.payload)))
    (w := ⟨_, false⟩) rfl rfl rfl (readable_of_reading h.readable source hm) rfl
    (nofun) (by rw [hstored]; exact hlisted) (h.salvageRecorded_eq_false ?_)
    (fun hw => by cases congrArg Written.verdict hw) ?_ (nofun), hnumber⟩
  · intro hwaits
    have hheld : ∃ held, readStatusMirror isoSeconds s.file none = .ok held := by
      rcases h.readable.missing_or_reading isoSeconds with hmissing | hread
      · rw [hmissing] at hwaits
        cases hwaits
      · exact hread
    obtain ⟨held, hheld⟩ := hheld
    exact not_ahead_iff.mpr (hsalvage hwaits held (by rw [hheld]; rfl)) (hahead held hheld)
  · intro n hn
    cases hn
    exact hnumber.symm

/-- **A poll takes a status in**, or does not. -/
theorem Store.Kept.ingestDispatchMirror {s' : Store} {x : Answers}
    (hcareful : CarefulPoll isoSeconds target s x) {action : PollAction}
    (hin : ingestDispatchMirror isoSeconds tokenText target s s.notes x = some (s', action)) :
    s'.Kept isoSeconds target ∧
      (s'.notes.launchUnconfirmed = true → s.notes.launchUnconfirmed = true) ∧
      (action = .ingested ∨ action = .unchanged → s'.notes.mirrorStale = false) ∧
      (action.ok = true → action = .ingested ∨ action = .unchanged ∨
        (s'.file = s.file ∧ s.notes.launchUnconfirmed = true)) := by
  unfold Fleet.ingestDispatchMirror at hin
  unfold CarefulPoll at hcareful
  split at hin
  · cases hin
    exact ⟨h, id, (by rintro (h | h) <;> cases h), nofun⟩
  · cases hfetch : x.fetch with
    | failed =>
      simp only [hfetch] at hin hcareful
      split at hin
      · rename_i hlaunch
        have hgiven := hcareful hlaunch
        have hnotdead : lastWritten s.history ≠ some ⟨some "worker_dead", true⟩ := by
          intro hdead
          rw [(h.dead hdead).2.2.2] at hlaunch
          cases hlaunch
        have hmissed : (s.mark fun m => { m with
            launchUnconfirmed := true
            rowState := some "launch_unconfirmed"
            launchUnconfirmedStatusMisses := m.launchUnconfirmedStatusMisses + 1 }).Kept
              isoSeconds target :=
          h.mark h.stopped .inl (fun n hn => .inl hn) fun _ => hlaunch
        unfold resolveUnconfirmedWithoutStatus at hin
        simp only [hgiven, Bool.false_eq_true, if_false] at hin
        split at hin
        · cases hin
          exact ⟨hmissed.askIdentity hnotdead x, fun _ => hlaunch, (by rintro (h | h) <;> cases h),
            fun _ => .inr (.inr ⟨rfl, hlaunch⟩)⟩
        · cases hin
          exact ⟨hmissed, fun _ => hlaunch, (by rintro (h | h) <;> cases h),
            fun _ => .inr (.inr ⟨rfl, hlaunch⟩)⟩
      · cases hin
        exact ⟨h, id, (by rintro (h | h) <;> cases h), nofun⟩
    | fetched content =>
      simp only [hfetch] at hin hcareful
      split at hin
      · cases hin
      · cases hin
        exact ⟨h, id, (by rintro (h | h) <;> cases h), nofun⟩
      · cases hin
        exact ⟨h, id, (by rintro (h | h) <;> cases h), nofun⟩
      · cases hin
        have hregressed := h.note (e := .regressed) rfl rfl (nofun)
          (fun p hp => by cases hp)
        exact ⟨hregressed.mark (fun _ => rfl) (fun _ => .inr fun p hp => by cases hp)
          (fun n hn => .inl hn) id, id, (by rintro (h | h) <;> cases h), nofun⟩
      · cases hin
        split
        · refine ⟨h.mark (nofun) (nofun) (fun n hn => .inr ?_) id,
            id, fun _ => rfl, fun _ => .inr (.inl rfl)⟩
          intro q hq
          cases hn
          rw [Option.mem_def.mp hq]
          rfl
        · rename_i hrunning
          refine ⟨h, id, fun _ => ?_, fun _ => .inr (.inl rfl)⟩
          rw [← Bool.not_eq_true]
          exact fun hs => hrunning (h.stopped hs)
      · rename_i r hr
        cases hin
        obtain ⟨hkept, hseq⟩ := h.ingested hr hcareful x.source
        split
        · cases receiptPid (Output.redactMapping r.payload) with
          | none => exact ⟨hkept, id, fun _ => rfl, fun _ => .inl rfl⟩
          | some pid =>
            refine ⟨hkept.mark hkept.stopped .inl (fun n hn => .inl hn) (nofun),
              fun hl => (by cases hl), fun _ => rfl, fun _ => .inl rfl⟩
        · exact ⟨hkept, id, fun _ => rfl, fun _ => .inl rfl⟩

/-! ### A round of a watch -/

theorem Store.Kept.salvageCheck
    (hstate : mirrorState isoSeconds s.file ≠ some "salvage_needed") (notes : DispatchMeta)
    (x : Answers) (reasonLead : String) :
    match salvageNeededForDirtyWorktree isoSeconds target s notes x reasonLead with
    | .clean s' => s' = s.note (.checked .clean)
    | .salvage s' => s'.Kept isoSeconds target
    | .raised => False := by
  have hchecked : (s.note (.checked x.porcelain)).Kept isoSeconds target :=
    h.note rfl rfl (nofun) (fun p hp => by cases hp)
  unfold salvageNeededForDirtyWorktree
  cases (nonblank notes.worktreePath).map strip with
  | none =>
    obtain ⟨s', hs', hkept⟩ := h.writeSalvageNeededMirror hstate x none none
      (some "dispatch meta missing declared worktree_path") (reasonLead ++ "_worktree_unknown")
    simp only [hs', Option.elim_some]
    exact hkept
  | some path =>
    simp only
    cases hporcelain : x.porcelain with
    | clean => rfl
    | dirty porcelain =>
      rw [hporcelain] at hchecked
      obtain ⟨s', hs', hkept⟩ := hchecked.writeSalvageNeededMirror hstate x (some path)
        (some porcelain) none (reasonLead ++ "_dirty_worktree")
      simp only [hs', Option.elim_some]
      exact hkept
    | unavailable error =>
      rw [hporcelain] at hchecked
      obtain ⟨s', hs', hkept⟩ := hchecked.writeSalvageNeededMirror hstate x (some path)
        none (some error) (reasonLead ++ "_porcelain_unavailable")
      simp only [hs', Option.elim_some]
      exact hkept

theorem Store.Kept.confirm (hstale : s.notes.mirrorStale = false) {state : Option String}
    (hproven : state.any (· ∈ salvageNeededStates) = false →
      ∃ w, lastWritten s.history = some w ∧ EndProven s.history w) (watcher : ℕ) :
    (s.confirm watcher state).Kept isoSeconds target := by
  unfold Store.confirm
  split
  · exact h
  · rename_i hsalvage
    rw [Bool.not_eq_true] at hsalvage
    exact h.note rfl rfl (nofun) fun p _ => ⟨hstale, hproven hsalvage⟩

end

theorem isTerminalState_worker_dead : isTerminalState "worker_dead" = true := by decide +kernel

theorem isTerminalState_salvage_needed : isTerminalState "salvage_needed" = true := by
  decide +kernel

/-- A mirror that is not at its end is no verdict's, and none that waits for salvage. -/
theorem Store.Kept.of_not_terminal (h : s.Kept isoSeconds target)
    (hstate : (mirrorState isoSeconds s.file).any isTerminalState = false) :
    lastWritten s.history ≠ some ⟨some "worker_dead", true⟩ ∧
      mirrorState isoSeconds s.file ≠ some "salvage_needed" := by
  constructor
  · intro hdead
    rw [h.written, hdead] at hstate
    exact absurd hstate (by simp [isTerminalState_worker_dead])
  · intro hsalvage
    rw [hsalvage] at hstate
    exact absurd hstate (by simp [isTerminalState_salvage_needed])

theorem Store.Kept.identityRound (h : s.Kept isoSeconds target)
    (hnotes : s.notes.launchUnconfirmed = true → notes.launchUnconfirmed = true)
    (hstate : notes.launchUnconfirmed = false →
      (mirrorState isoSeconds s.file).any isTerminalState = false) (x : Answers) (watcher : ℕ)
    (identityCheckedSeq afterSeq : Option ℤ) :
    (identityRound isoSeconds target s notes x watcher identityCheckedSeq afterSeq).1.Kept
      isoSeconds target := by
  unfold Fleet.identityRound
  split
  · rename_i hasks
    have hlaunch : notes.launchUnconfirmed = false := by simpa using hasks.1
    obtain ⟨hnotdead, hnotsalvage⟩ := h.of_not_terminal (hstate hlaunch)
    have hasked := h.askIdentity hnotdead x
    simp only
    split
    · rename_i hdead
      have hcheck := hasked.salvageCheck hnotsalvage notes x "remote_launch_pid_dead"
      split
      · exact hasked
      · rename_i s' hs'
        rw [hs'] at hcheck
        exact hcheck
      · rename_i s' hs'
        rw [hs'] at hcheck
        subst hcheck
        have hclean : ((s.askIdentity x).note (.checked .clean)).Kept isoSeconds target :=
          hasked.note rfl rfl (nofun) (fun p hp => by cases hp)
        have hanswered : answeredDead ((s.askIdentity x).note (.checked .clean)).history = true := by
          show answeredDead (.checked .clean :: .answered x.identity :: s.history) = true
          rw [hdead.1]
          rfl
        have hchecked : checkedDead ((s.askIdentity x).note (.checked .clean)).history = true := by
          show (answeredDead (.answered x.identity :: s.history) || _) = true
          rw [hdead.1]
          rfl
        have hfalse : s.notes.launchUnconfirmed = false := by
          rw [← Bool.not_eq_true]
          intro htrue
          rw [hnotes htrue] at hlaunch
          cases hlaunch
        obtain ⟨s'', hs'', hkept, hstale, hlast⟩ := hclean.writeWorkerDeadMirror (hstate hlaunch)
          hanswered hchecked hfalse x
        simp only [hs'']
        exact hkept.confirm hstale (fun _ => ⟨_, hlast, .inr ⟨rfl, rfl⟩⟩) watcher
    · exact hasked
  · exact h

theorem isSome_mirrorSeq {file : MirrorFile} {state : String}
    (h : mirrorState isoSeconds file = some state) : (mirrorSeq isoSeconds file).isSome = true := by
  unfold mirrorState remoteStateFromMirror at h
  unfold mirrorSeq
  cases hread : (readStatusMirror isoSeconds file none).toOption with
  | none =>
    rw [hread] at h
    cases h
  | some r => rfl

/-- **An end in the mirror has its proof**, once the worktree of a failure was found clean. -/
theorem Store.Kept.endProven (h : s.Kept isoSeconds target)
    (hend : (mirrorState isoSeconds s.file).any isTerminalState = true)
    (hsalvage : (mirrorState isoSeconds s.file).any (· ∈ salvageNeededStates) = false)
    (hchecked : failureTerminalNeedsSalvageCheck (mirrorState isoSeconds s.file) = true →
      checkedAccepted s.history = true) :
    ∃ w, lastWritten s.history = some w ∧ EndProven s.history w := by
  cases hw : lastWritten s.history with
  | none =>
    rw [h.written, hw] at hend
    cases hend
  | some w =>
    have hstate : mirrorState isoSeconds s.file = w.state := by rw [h.written, hw, Option.bind_some]
    have hlisted := h.listed w hw
    rw [hstate] at hend hsalvage hchecked
    refine ⟨w, rfl, ?_⟩
    cases hverdict : w.verdict with
    | true =>
      rcases h.verdicts w hw hverdict with hdead | hwaits
      · exact .inr ⟨hverdict, hdead⟩
      · rw [hwaits] at hsalvage
        exact absurd hsalvage (by decide)
    | false =>
      obtain ⟨state, hsome⟩ : ∃ state, w.state = some state := by
        cases hnone : w.state with
        | none =>
          rw [hnone] at hend
          cases hend
        | some state => exact ⟨state, rfl⟩
      refine .inl ⟨hverdict, hend, hsalvage, ?_⟩
      rw [hsome] at hlisted hend hsalvage hchecked ⊢
      rw [Option.any_some] at hend hsalvage ⊢
      unfold Fleet.listed at hlisted
      unfold failureTerminalNeedsSalvageCheck at hchecked
      rw [Option.all_some, hend, Bool.not_true, Bool.false_or, decide_eq_true_eq] at hlisted
      simp only [Option.any_some, decide_eq_true_eq, decide_eq_false_iff_not,
        List.mem_append] at hlisted hsalvage hchecked ⊢
      rcases hlisted with ((hsuccess | hfailure) | hwedged) | hwaits
      · exact .inl hsuccess
      · exact .inr (hchecked (.inl hfailure))
      · exact .inr (hchecked (.inr hwedged))
      · exact absurd hwaits hsalvage

/-- What a round knows when its status was taken in, and the worktree of a failure was found
clean. -/
structure TakenIn (isoSeconds : String → Option ℤ) (s : Store) (notes : DispatchMeta)
    (action : PollAction) (beforeSeq : Option ℤ) : Prop where
  launch : s.notes.launchUnconfirmed = true → notes.launchUnconfirmed = true
  stale : action = .ingested ∨ action = .unchanged → s.notes.mirrorStale = false
  ok : action.ok = true → action = .ingested ∨ action = .unchanged ∨
    (mirrorSeq isoSeconds s.file = beforeSeq ∧ notes.launchUnconfirmed = true)
  checked : action = .ingested ∨ action = .unchanged →
    failureTerminalNeedsSalvageCheck (mirrorState isoSeconds s.file) = true →
      checkedAccepted s.history = true

theorem Store.Kept.terminalRound (h : s.Kept isoSeconds target) {action : PollAction}
    {beforeSeq : Option ℤ} (hin : TakenIn isoSeconds s notes action beforeSeq) (x : Answers)
    (watcher : ℕ) (identityCheckedSeq : Option ℤ) :
    (terminalRound isoSeconds target s notes x watcher action beforeSeq identityCheckedSeq).1.Kept
      isoSeconds target := by
  unfold Fleet.terminalRound
  simp only
  split
  · rename_i hends
    obtain ⟨hfresh, hend⟩ := hends
    simp only [Bool.and_eq_true, Bool.or_eq_true, decide_eq_true_eq] at hfresh
    obtain ⟨⟨hok, -⟩, hnew⟩ := hfresh
    -- a poll that takes nothing in leaves the number alone
    have htaken : action = .ingested ∨ action = .unchanged := by
      rcases hin.ok hok with hingested | hunchanged | ⟨hsame, -⟩
      · exact .inl hingested
      · exact .inr hunchanged
      · rcases hnew with (hne | hingested) | hunchanged
        · rw [hsame, Option.or_self] at hne
          exact absurd rfl hne
        · exact .inl hingested
        · exact .inr hunchanged
    have hmarked : (s.mark fun m => { m with pidHint := some .dead }).Kept isoSeconds target :=
      h.mark h.stopped .inl (fun n hn => .inl hn) id
    exact hmarked.confirm (hin.stale htaken)
      (fun hsalvage => h.endProven hend hsalvage (hin.checked htaken)) watcher
  · rename_i hnotfresh
    split
    · exact h
    · rename_i hnotended
      refine h.identityRound hin.launch (fun hlaunch => ?_) x watcher _ _
      rw [← Bool.not_eq_true]
      intro hend
      obtain ⟨state, hstate⟩ : ∃ state, mirrorState isoSeconds s.file = some state := by
        cases hnone : mirrorState isoSeconds s.file with
        | none =>
          rw [hnone] at hend
          cases hend
        | some state => exact ⟨state, rfl⟩
      have hok : action.ok = true := by
        by_contra hnot
        exact hnotended ⟨by simpa using hnot, hend⟩
      refine hnotfresh ⟨?_, hend⟩
      simp only [Bool.and_eq_true, Bool.or_eq_true, decide_eq_true_eq]
      refine ⟨⟨hok, isSome_mirrorSeq hstate⟩, ?_⟩
      rcases hin.ok hok with hingested | hunchanged | ⟨-, hunconfirmed⟩
      · exact .inl (.inr hingested)
      · exact .inr hunchanged
      · rw [hunconfirmed] at hlaunch
        cases hlaunch

/-- **A round of a watch.** -/
theorem Store.Kept.watchRound (h : s.Kept isoSeconds target) {x : Answers}
    (hcareful : CarefulPoll isoSeconds target s x) (watcher : ℕ)
    (identityCheckedSeq : Option ℤ) :
    (watchRound isoSeconds tokenText target s x watcher identityCheckedSeq).1.Kept
      isoSeconds target := by
  unfold Fleet.watchRound
  simp only
  split
  · exact h
  · rename_i s' action hin
    obtain ⟨hkept, hlaunch, hstale, hok⟩ := h.ingestDispatchMirror hcareful hin
    have hok' : action.ok = true → action = .ingested ∨ action = .unchanged ∨
        (mirrorSeq isoSeconds s'.file = mirrorSeq isoSeconds s.file ∧
          s.notes.launchUnconfirmed = true) := by
      intro h
      rcases hok h with hingested | hunchanged | ⟨hfile, hunconfirmed⟩
      · exact .inl hingested
      · exact .inr (.inl hunchanged)
      · exact .inr (.inr ⟨by rw [hfile], hunconfirmed⟩)
    split
    · rename_i hfails
      have hnotsalvage : mirrorState isoSeconds s'.file ≠ some "salvage_needed" := by
        intro hwaits
        have hlisted := hfails.2
        rw [hwaits] at hlisted
        exact absurd hlisted (by decide +kernel)
      have hcheck := hkept.salvageCheck hnotsalvage s.notes x "self_reported_failure_terminal"
      split
      · exact hkept
      · rename_i s'' hs''
        rw [hs''] at hcheck
        exact hcheck
      · rename_i s'' hs''
        rw [hs''] at hcheck
        subst hcheck
        have hclean : (s'.note (.checked .clean)).Kept isoSeconds target :=
          hkept.note rfl rfl (nofun) (fun p hp => by cases hp)
        exact hclean.terminalRound ⟨hlaunch, hstale, hok', fun _ _ => rfl⟩ x watcher _
    · rename_i hpasses
      exact hkept.terminalRound ⟨hlaunch, hstale, hok',
        fun htaken hfails => absurd ⟨htaken, hfails⟩ hpasses⟩ x watcher _

/-! ### A lock is freed -/

theorem owned_of_resolve {locks : LockFiles} {dispatchId : String} {lock : AccountLock}
    (h : resolveAccountLockForDispatch tokenText locks dispatchId notes = some lock) :
    lock ∈ locks ∧ lock.ownedBy dispatchId = true := by
  unfold resolveAccountLockForDispatch at h
  rcases Option.or_eq_some_iff.mp h with hnotes | ⟨-, hfound⟩
  · unfold accountLockFromDispatchMeta at hnotes
    obtain ⟨key, -, hnotes⟩ := Option.bind_eq_some_iff.mp hnotes
    obtain ⟨stored, hstored, hnotes⟩ := Option.bind_eq_some_iff.mp hnotes
    split at hnotes
    · rename_i howned
      cases hnotes
      exact ⟨(KeyedTable.get?_eq_some.mp hstored).1, howned.1⟩
    · cases hnotes
  · exact Table.find?_eq_some hfound

theorem stored_of_release {locks locks' : LockFiles} {now : ℤ} {lock stored : AccountLock}
    {reason : String} (hlock : lock ∈ locks)
    (h : releaseAccountLock locks now lock reason = some (locks', stored)) : stored = lock := by
  unfold releaseAccountLock at h
  obtain ⟨found, hfound, h⟩ := Option.bind_eq_some_iff.mp h
  split at h
  · cases h
    obtain ⟨hmem, hkey⟩ := KeyedTable.get?_eq_some.mp hfound
    exact KeyedTable.eq_of_key hmem hlock hkey
  · cases h

section

variable (h : s.Kept isoSeconds target)
include h

theorem Store.Kept.mirrorStaleOf_eq_false (hstale : s.notes.mirrorStale = false) :
    mirrorStaleOf s.notes (readStatusMirror isoSeconds s.file none) = false := by
  unfold mirrorStaleOf
  rw [hstale, Bool.false_or]
  cases hread : readStatusMirror isoSeconds s.file none with
  | error e => rfl
  | ok r =>
    have hbehind := h.behind r hread
    cases hseq : s.notes.lastMirrorSeq with
    | none => rfl
    | some n =>
      have hn := hbehind n hseq
      simpa [Except.toOption] using hn

/-- **What a watch has confirmed is proof**, and waits for no salvage. -/
theorem Store.Kept.proven_of_confirmed (hconfirmed : confirmedLast s.history = true) :
    proven s.history = true ∧ salvageRecorded s.history = false := by
  obtain ⟨w, hw, hproven⟩ := h.confirmed hconfirmed
  have hstate : mirrorState isoSeconds s.file = w.state := by rw [h.written, hw, Option.bind_some]
  rcases hproven with ⟨hverdict, hend, hsalvage, hproof⟩ | ⟨hverdict, hdead⟩
  · refine ⟨?_, h.salvageRecorded_eq_false ?_⟩
    · unfold proven
      rw [lastAccepted_of_status hw hverdict, if_pos hend, Bool.or_eq_true]
      exact hproof
    · rw [hstate]
      intro hwaits
      rw [hwaits] at hsalvage
      exact absurd hsalvage (by decide)
  · obtain ⟨state, verdict⟩ := w
    obtain rfl : verdict = true := hverdict
    obtain rfl : state = some "worker_dead" := hdead
    obtain ⟨hanswered, hchecked, hnotended, -⟩ := h.dead hw
    refine ⟨?_, h.salvageRecorded_eq_false (by rw [hstate]; decide)⟩
    unfold proven
    rw [hnotended, hanswered, hchecked]
    rfl

/-- **A mirror of a success is proof.** -/
theorem Store.Kept.proven_of_success
    (hsuccess : (mirrorState isoSeconds s.file).any (· ∈ successTerminalRecordStates) = true) :
    proven s.history = true := by
  cases hw : lastWritten s.history with
  | none =>
    rw [h.written, hw] at hsuccess
    cases hsuccess
  | some w =>
    have hstate : mirrorState isoSeconds s.file = w.state := by rw [h.written, hw, Option.bind_some]
    rw [hstate] at hsuccess
    cases hverdict : w.verdict with
    | true =>
      rcases h.verdicts w hw hverdict with hv | hv <;> rw [hv] at hsuccess <;>
        exact absurd hsuccess (by decide)
    | false =>
      have hend : w.state.any isTerminalState = true := by
        have hall : ∀ state ∈ successTerminalRecordStates, isTerminalState state = true := by
          decide +kernel
        cases hsome : w.state with
        | none =>
          rw [hsome] at hsuccess
          cases hsuccess
        | some state =>
          rw [hsome, Option.any_some, decide_eq_true_eq] at hsuccess
          exact hall state hsuccess
      unfold proven
      rw [lastAccepted_of_status hw hverdict, if_pos hend, hsuccess]
      rfl

/-- **A lock is noted as released**: its own, after proof, with a mirror that is not stale. -/
theorem Store.Kept.noteReleased (locks : LockFiles) {stored : AccountLock}
    (howned : stored.ownedBy target.dispatchId = true)
    (hstale : mirrorStaleOf s.notes (readStatusMirror isoSeconds s.file none) = false)
    (hproven : proven s.history = true) (hsalvage : salvageRecorded s.history = false) :
    (s.noteReleased isoSeconds locks stored).Kept isoSeconds target := by
  refine (h.locks locks).note rfl ?_ (nofun) (fun p hp => by cases hp)
  show (stored.ownedBy target.dispatchId && !mirrorStaleOf s.notes _ && proven s.history &&
    !salvageRecorded s.history) = true
  rw [howned, hstale, hproven, hsalvage]
  rfl

end

theorem not_stale_of_mayReleaseLocks {sshReachable : Bool} {mirror : Except Refusal Reading}
    {mirrorStale leaseActive : Bool} {pidHint : PidHint}
    (h : mayReleaseLocks
      (classifyDispatchRow sshReachable mirror mirrorStale leaseActive pidHint) = true) :
    mirrorStale = false := by
  rw [← Bool.not_eq_true]
  rintro rfl
  unfold classifyDispatchRow at h
  simp only [if_true] at h
  split at h
  · cases h
  · split at h <;> cases h

theorem mayRelease_of_decide {ctx : ReconcileContext}
    (h : decideReconcileAction ctx = .releaseLocks) : ctx.mayRelease = true := by
  unfold decideReconcileAction at h
  split at h
  · cases h
  · split at h
    · cases h
    · split at h
      · cases h
      · cases h
      all_goals
        split at h
        · assumption
        · cases h

/-- **The locks of a dispatch are released.** -/
theorem Store.Kept.releaseDispatchLocks (h : s.Kept isoSeconds target) {ctx : ReconcileContext}
    (hlock : ctx.accountLock =
      resolveAccountLockForDispatch tokenText s.locks target.dispatchId ctx.notes)
    (hstale : mirrorStaleOf s.notes (readStatusMirror isoSeconds s.file none) = false)
    (hproven : proven s.history = true) (hsalvage : salvageRecorded s.history = false)
    (clock : ℤ) :
    (releaseDispatchLocks isoSeconds tokenText s ctx clock).Kept isoSeconds target := by
  have hreleased (s : Store) (h : s.Kept isoSeconds target) :
      (s.mark fun m => { m with rowState := some "released", leaseActive := false }).Kept
        isoSeconds target :=
    h.mark h.stopped .inl (fun n hn => .inl hn) id
  unfold Fleet.releaseDispatchLocks
  simp only
  split
  · split
    · exact h
    · exact hreleased s h
  · rename_i lock hfound
    obtain ⟨hmem, howned⟩ := owned_of_resolve (hlock.symm.trans hfound)
    split
    · exact h
    · split
      · exact h
      · rename_i locks stored hreleases
        obtain rfl := stored_of_release hmem hreleases
        exact hreleased _ (h.noteReleased locks howned hstale hproven hsalvage)

/-- **Reconciling**, where what it may release was a success or was confirmed. -/
theorem Store.Kept.reconcileDispatch (h : s.Kept isoSeconds target)
    {mutate sshReachable waited : Bool}
    (hcareful : mutate = true →
      (buildDispatchContext tokenText isoSeconds target.dispatchId s.file s.notes s.locks
        sshReachable waited).mayRelease = true →
      (mirrorState isoSeconds s.file).any (· ∈ successTerminalRecordStates) = true ∨
        confirmedLast s.history = true) (clock : ℤ) :
    (reconcileDispatch isoSeconds tokenText target s mutate sshReachable waited clock).Kept
      isoSeconds target := by
  unfold Fleet.reconcileDispatch
  simp only
  split
  · rename_i hreleases
    have hmay := mayRelease_of_decide hreleases.2
    have hstale : mirrorStaleOf s.notes (readStatusMirror isoSeconds s.file none) = false := by
      have hclass := hmay
      unfold buildDispatchContext at hclass
      simp only [Bool.and_eq_true] at hclass
      exact not_stale_of_mayReleaseLocks hclass.1.2
    rcases hcareful hreleases.1 hmay with hsuccess | hconfirmed
    · refine h.releaseDispatchLocks rfl hstale (h.proven_of_success hsuccess)
        (h.salvageRecorded_eq_false fun hwaits => ?_) clock
      rw [hwaits] at hsuccess
      exact absurd hsuccess (by decide)
    · obtain ⟨hproven, hsalvage⟩ := h.proven_of_confirmed hconfirmed
      exact h.releaseDispatchLocks rfl hstale hproven hsalvage clock
  · exact h

/-- **A release after a watch**, that comes next. -/
theorem Store.Kept.releaseLockOnConfirmedTerminal (h : s.Kept isoSeconds target)
    {state : Option String} {watcher : ℕ}
    (hcareful : state.any (· ∈ salvageNeededStates) = false →
      s.history.head? = some (.confirmed watcher)) (clock : ℤ) :
    (releaseLockOnConfirmedTerminal isoSeconds tokenText target s state clock).Kept
      isoSeconds target := by
  unfold Fleet.releaseLockOnConfirmedTerminal
  split
  · rename_i hends
    have hhead := hcareful (by simpa using hends.2)
    have hlast : confirmedLast s.history = true := by
      obtain ⟨rest, hrest⟩ := List.head?_eq_some_iff.mp hhead
      rw [hrest]
      rfl
    obtain ⟨hproven, hsalvage⟩ := h.proven_of_confirmed hlast
    have hstale := h.mirrorStaleOf_eq_false (h.fresh ⟨watcher, hhead⟩)
    split
    · exact h
    · rename_i lock hfound
      obtain ⟨hmem, howned⟩ := owned_of_resolve hfound
      split
      · exact h
      · split
        · exact h
        · rename_i locks stored hreleases
          obtain rfl := stored_of_release hmem hreleases
          exact h.noteReleased locks howned hstale hproven hsalvage
  · exact h

end GoalFlight.Fleet
