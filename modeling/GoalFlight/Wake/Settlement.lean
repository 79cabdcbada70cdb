import GoalFlight.Wake.PendingReport

/-!
# Wake: the owner of a pending report, and its settlement

Any number of processes run the operations on the claim of one generation, and die at any
point.  A dead process does nothing more; a probe of one says that it is dead, or nothing.

The ownership of a claim and its settlement do not survive a release by positions alone, which
removes a claim of another process and an acknowledged one; and a claim of no positions is
acknowledged by nothing.  `report_owned_and_settled` is about the runs without these.
-/

namespace GoalFlight.Wake

open Relational

/-! ### Processes -/

/-- The file, and the processes that have died. -/
structure ReportState where
  file : Option PendingReportState
  dead : List Generation

/-- An operation, with what the process draws. -/
inductive ReportCall
  | acquire (positions : Option (List (String × ℤ))) (cursorVersion : Option ℤ)
      (streamSnapshots : List (String × String)) (claimToken : String)
  | mark (claimToken : String)
  | acknowledge (positions : List (String × ℤ))
  | release (positions : List (String × ℤ))

/-- A process makes a call, in which its probes answer or do not; or it dies. -/
inductive ReportAction
  | call (process : Generation) (c : ReportCall) (probed : Bool)
  | die (process : Generation)

/-- `_pending_report_owner_liveness`: a probe that answers says whether the process lives. -/
def ReportState.liveness (s : ReportState) (probed : Bool) (process : Generation) :
    Option Bool :=
  if probed then some (process ∉ s.dead) else none

/-- The file that an outcome leaves. -/
def fileAfter {α : Type} (file : Option PendingReportState) :
    Except String (Answer α) → Option PendingReportState
  | .error _ => file
  | .ok (_, file') => file'

/-- The file after a call. -/
def ReportCall.run (hexadecimal : String → Bool) (s : ReportState) (process : Generation)
    (probed : Bool) : ReportCall → Option PendingReportState
  | .acquire positions version snapshots claimToken =>
    fileAfter s.file (acquirePendingReport hexadecimal process (s.liveness probed) claimToken
      positions version snapshots s.file)
  | .mark claimToken => fileAfter s.file (markPendingReportReported process claimToken s.file)
  | .acknowledge positions => fileAfter s.file (acknowledgePendingReport positions s.file)
  | .release positions => fileAfter s.file (releasePendingReportClaim positions s.file)

namespace ReportState

/-- The state before there is a claim. -/
def fresh : ReportState := ⟨none, []⟩

/-- One step. -/
def step (hexadecimal : String → Bool) (s : ReportState) : ReportAction → ReportState
  | .call process c probed => { s with file := c.run hexadecimal s process probed }
  | .die process => { s with dead := process :: s.dead }

/-- The state after these steps. -/
def run (hexadecimal : String → Bool) (s : ReportState) (actions : List ReportAction) :
    ReportState :=
  Machine.run (step hexadecimal) s actions

/-- The dead do nothing. -/
def Possible (s : ReportState) : ReportAction → Prop
  | .call process _ _ => process ∉ s.dead
  | .die _ => True

/-- **The condition**: a release that removes the claim is one of its owner, before it is
acknowledged; and a new claim has positions. -/
def Orderly (s : ReportState) : ReportAction → Prop
  | .call process (.release raw) _ =>
    ∀ st d, s.file = some st → normalizePositions raw = .ok d →
      SameItems st.boundary.positions.dict d.dict →
        process = st.owner ∧ st.phase ≠ .acknowledged
  | .call _ (.acquire positions _ _ _) _ =>
    s.file = none → ∀ raw d, positions = some raw → normalizePositions raw = .ok d →
      d.dict.rows ≠ []
  | _ => True

end ReportState

/-- The step is an acknowledgement that reaches the position of the stream. -/
def ReportAction.Acknowledges : ReportAction → String × ℕ → Prop
  | .call _ (.acknowledge raw) _, e => ∃ d, normalizePositions raw = .ok d ∧ e.2 ≤ d.get e.1
  | _, _ => False

/-- The step marks the claim as reported, or releases it. -/
def ReportCall.OwnerOnly : ReportCall → Prop
  | .mark _ | .release _ => True
  | _ => False

/-- **What a step leaves of a claim.** -/
structure ClaimKept (s : ReportState) (a : ReportAction) (s' : ReportState) : Prop where
  /-- Another owner has it only if its owner was dead, and then with its boundary. -/
  takeover : ∀ st st', s.file = some st → s'.file = some st' →
    st'.owner ≠ st.owner ∨ st'.claimToken ≠ st.claimToken →
      st.owner ∈ s.dead ∧ st'.boundary = st.boundary
  /-- A process that is not its owner neither marks nor releases it. -/
  outsider : ∀ st process c probed, s.file = some st → a = .call process c probed →
    c.OwnerOnly → process ≠ st.owner → s'.file = s.file
  /-- A stream is dropped by an acknowledgement of its position. -/
  coverage : ∀ st st' e, s.file = some st → s'.file = some st' →
    e ∈ st.boundary.positions.dict → e ∈ st'.boundary.positions.dict ∨ a.Acknowledges e
  /-- An acknowledged claim stays. -/
  final : ∀ st, s.file = some st → st.phase = .acknowledged → s'.file = s.file

variable {hexadecimal : String → Bool} {s s' : ReportState} {a : ReportAction}
  {st st' : PendingReportState} {process : Generation} {c : ReportCall} {probed : Bool}

/-! ### A step of a claim -/

/-- **What one step makes of a claim**: nothing; a takeover from a dead owner; a report by the
owner; an acknowledgement, of a part or of all; or a release. -/
inductive Change (s : ReportState) (st : PendingReportState) :
    ReportAction → Option PendingReportState → Prop
  | same {a : ReportAction} (h : st.phase ≠ .acknowledged → ∀ e ∈ st.boundary.positions.dict,
      ¬ a.Acknowledges e) : Change s st a (some st)
  | takeover {process positions version snapshots claimToken probed}
      (hphase : st.phase ≠ .acknowledged) (hdead : st.owner ∈ s.dead) :
      Change s st (.call process (.acquire positions version snapshots claimToken) probed)
        (some ⟨.claimed, st.boundary, claimToken, process⟩)
  | report {claimToken probed} (hphase : st.phase = .claimed) :
      Change s st (.call st.owner (.mark claimToken) probed) (some { st with phase := .reported })
  | part {process raw probed} (d : Positions) (hphase : st.phase ≠ .acknowledged)
      (hraw : normalizePositions raw = .ok d)
      (hleft : ∃ e ∈ st.boundary.positions.dict, d.get e.1 < e.2) :
      Change s st (.call process (.acknowledge raw) probed)
        (some { st with boundary := st.boundary.shrink d })
  | all {process raw probed} (d : Positions) (hphase : st.phase ≠ .acknowledged)
      (hraw : normalizePositions raw = .ok d)
      (hreached : ∀ e ∈ st.boundary.positions.dict, e.2 ≤ d.get e.1) :
      Change s st (.call process (.acknowledge raw) probed)
        (some { st with phase := .acknowledged })
  | release {process raw probed} (d : Positions) (hraw : normalizePositions raw = .ok d)
      (hsame : SameItems st.boundary.positions.dict d.dict) :
      Change s st (.call process (.release raw) probed) none

theorem fileAfter_cases {α : Type} (file : Option PendingReportState)
    (x : Except String (Answer α)) :
    (∃ abort, x = .error abort ∧ fileAfter file x = file) ∨
      ∃ v file', x = .ok (v, file') ∧ fileAfter file x = file' := by
  cases x with
  | error abort => exact .inl ⟨abort, rfl, rfl⟩
  | ok answer => exact .inr ⟨answer.1, answer.2, rfl, rfl⟩

section

variable (hfile : s.file = some st)
include hfile

theorem Change.quiet {file' : Option PendingReportState} (hquiet : ∀ e, ¬ a.Acknowledges e)
    (hsame : file' = s.file) : Change s st a file' := by
  rw [hsame, hfile]
  exact .same fun _ e _ => hquiet e

theorem change_acquire {positions : Option (List (String × ℤ))} {version : Option ℤ}
    {snapshots : List (String × String)} {claimToken : String} :
    Change s st (.call process (.acquire positions version snapshots claimToken) probed)
      ((ReportCall.acquire positions version snapshots claimToken).run hexadecimal s process
        probed) := by
  rcases fileAfter_cases s.file (acquirePendingReport hexadecimal process (s.liveness probed)
    claimToken positions version snapshots s.file) with ⟨_, -, hafter⟩ | ⟨v, file', hok, hafter⟩
  · exact .quiet hfile (fun _ hack => hack) hafter
  rcases acquirePendingReport_cases hok with hsame | ⟨current, hcurrent, hphase, hdead, hnew⟩ |
    ⟨hnone, -⟩
  · exact .quiet hfile (fun _ hack => hack) (hafter.trans hsame)
  · cases hfile.symm.trans hcurrent
    have hnext := hafter.trans hnew
    show Change s st _ (fileAfter s.file _)
    rw [hnext]
    refine .takeover hphase ?_
    unfold ReportState.liveness at hdead
    split at hdead
    · simpa using hdead
    · cases hdead
  · rw [hfile] at hnone
    cases hnone

theorem change_mark {claimToken : String} :
    Change s st (.call process (.mark claimToken) probed)
      ((ReportCall.mark claimToken).run hexadecimal s process probed) := by
  rcases fileAfter_cases s.file (markPendingReportReported process claimToken s.file) with
    ⟨_, -, hafter⟩ | ⟨v, file', hok, hafter⟩
  · exact .quiet hfile (fun _ hack => hack) hafter
  rcases markPendingReportReported_cases hok with hsame | ⟨current, hcurrent, howner, hphase, hnew⟩
  · exact .quiet hfile (fun _ hack => hack) (hafter.trans hsame)
  · cases hfile.symm.trans hcurrent
    have hnext := hafter.trans hnew
    show Change s st _ (fileAfter s.file _)
    rw [hnext, ← howner]
    exact .report hphase

theorem change_acknowledge {raw : List (String × ℤ)} :
    Change s st (.call process (.acknowledge raw) probed)
      ((ReportCall.acknowledge raw).run hexadecimal s process probed) := by
  show Change s st _ (fileAfter s.file _)
  rcases fileAfter_cases s.file (acknowledgePendingReport raw s.file) with
    ⟨abort, herror, hafter⟩ | ⟨v, file', hok, hafter⟩
  · -- Only positions that are not valid raise.
    refine .quiet hfile (fun e ⟨d, hd, _⟩ => ?_) hafter
    unfold acknowledgePendingReport at herror
    rw [hd, hfile] at herror
    simp only [bind, Except.bind] at herror
    split at herror
    · cases herror
    split at herror
    · cases herror
    split at herror <;> cases herror
  rw [hafter]
  obtain ⟨d, hd, ⟨hsame, hbeyond⟩ | ⟨current, hcurrent, hphase, hcase⟩⟩ :=
    acknowledgePendingReport_cases hok
  · rw [hsame, hfile]
    refine .same fun hphase e he ⟨d', hd', hle⟩ => ?_
    cases hd.symm.trans hd'
    exact absurd (hbeyond st hfile hphase e he) (not_lt.mpr hle)
  · cases hfile.symm.trans hcurrent
    rcases hcase with ⟨hleft, hnew⟩ | ⟨hreached, hnew⟩
    · rw [hnew]
      exact .part d hphase hd hleft
    · rw [hnew]
      exact .all d hphase hd hreached

theorem change_release {raw : List (String × ℤ)} :
    Change s st (.call process (.release raw) probed)
      ((ReportCall.release raw).run hexadecimal s process probed) := by
  rcases fileAfter_cases s.file (releasePendingReportClaim raw s.file) with
    ⟨_, -, hafter⟩ | ⟨v, file', hok, hafter⟩
  · exact .quiet hfile (fun _ hack => hack) hafter
  rcases releasePendingReportClaim_cases hok with hsame | ⟨current, d, hcurrent, hd, hitems, hnew⟩
  · exact .quiet hfile (fun _ hack => hack) (hafter.trans hsame)
  · cases hfile.symm.trans hcurrent
    have hnext := hafter.trans hnew
    show Change s st _ (fileAfter s.file _)
    rw [hnext]
    exact .release d hd hitems

end

/-- **A step changes a claim in one of these ways.** -/
theorem change_step (a : ReportAction) (hfile : s.file = some st) :
    Change s st a (s.step hexadecimal a).file := by
  cases a with
  | die process => exact .quiet hfile (fun _ hack => hack) rfl
  | call process c probed =>
    show Change s st _ (c.run hexadecimal s process probed)
    cases c with
    | acquire positions version snapshots claimToken => exact change_acquire hfile
    | mark claimToken => exact change_mark hfile
    | acknowledge raw => exact change_acknowledge hfile
    | release raw => exact change_release hfile

theorem Change.kept {file' : Option PendingReportState} (h : Change s st a file')
    (hfile : s.file = some st) (hnext : s'.file = file') (horderly : s.Orderly a) :
    ClaimKept s a s' := by
  have hst : ∀ {x}, s.file = some x → x = st := fun hx => Option.some.inj (hx.symm.trans hfile)
  have hst' : ∀ {x y}, file' = some y → s'.file = some x → x = y :=
    fun hy hx => Option.some.inj (hx.symm.trans (hnext.trans hy))
  cases h with
  | same hquiet =>
    have hsame : s'.file = s.file := hnext.trans hfile.symm
    refine ⟨fun x x' hx hx' hne => ?_, fun _ _ _ _ _ _ _ _ => hsame, fun x x' e hx hx' he => ?_,
      fun _ _ _ => hsame⟩
    · obtain rfl := hst hx
      obtain rfl := hst' rfl hx'
      exact (hne.elim (fun h => h rfl) fun h => h rfl).elim
    · obtain rfl := hst hx
      obtain rfl := hst' rfl hx'
      exact .inl he
  | takeover hphase hdead =>
    refine ⟨fun x x' hx hx' _ => ?_, fun x p c b hx ha honly _ => ?_, fun x x' e hx hx' he => ?_,
      fun x hx hack => ?_⟩
    · obtain rfl := hst hx
      obtain rfl := hst' rfl hx'
      exact ⟨hdead, rfl⟩
    · cases ha
      exact honly.elim
    · obtain rfl := hst hx
      obtain rfl := hst' rfl hx'
      exact .inl he
    · obtain rfl := hst hx
      exact absurd hack hphase
  | report hphase =>
    refine ⟨fun x x' hx hx' hne => ?_, fun x p c b hx ha _ hother => ?_,
      fun x x' e hx hx' he => ?_, fun x hx hack => ?_⟩
    · obtain rfl := hst hx
      obtain rfl := hst' rfl hx'
      exact (hne.elim (fun h => h rfl) fun h => h rfl).elim
    · obtain rfl := hst hx
      cases ha
      exact absurd rfl hother
    · obtain rfl := hst hx
      obtain rfl := hst' rfl hx'
      exact .inl he
    · obtain rfl := hst hx
      rw [hphase] at hack
      cases hack
  | part d hphase hraw hleft =>
    refine ⟨fun x x' hx hx' hne => ?_, fun x p c b hx ha honly _ => ?_,
      fun x x' e hx hx' he => ?_, fun x hx hack => ?_⟩
    · obtain rfl := hst hx
      obtain rfl := hst' rfl hx'
      exact (hne.elim (fun h => h rfl) fun h => h rfl).elim
    · cases ha
      exact honly.elim
    · obtain rfl := hst hx
      obtain rfl := hst' rfl hx'
      rcases lt_or_ge (d.get e.1) e.2 with hbeyond | hreached
      · exact .inl (Table.mem_filter.mpr ⟨he, hbeyond⟩)
      · exact .inr ⟨d, hraw, hreached⟩
    · obtain rfl := hst hx
      exact absurd hack hphase
  | all d hphase hraw hreached =>
    refine ⟨fun x x' hx hx' hne => ?_, fun x p c b hx ha honly _ => ?_,
      fun x x' e hx hx' he => ?_, fun x hx hack => ?_⟩
    · obtain rfl := hst hx
      obtain rfl := hst' rfl hx'
      exact (hne.elim (fun h => h rfl) fun h => h rfl).elim
    · cases ha
      exact honly.elim
    · obtain rfl := hst hx
      exact .inr ⟨d, hraw, hreached e he⟩
    · obtain rfl := hst hx
      exact absurd hack hphase
  | release d hraw hsame =>
    have hnone : ∀ {x}, s'.file ≠ some x := by
      intro x hx
      rw [hnext] at hx
      cases hx
    obtain ⟨howner, hphase⟩ := horderly st d hfile hraw hsame
    refine ⟨fun x x' hx hx' _ => absurd hx' hnone, fun x p c b hx ha _ hother => ?_,
      fun x x' e hx hx' he => absurd hx' hnone, fun x hx hack => ?_⟩
    · obtain rfl := hst hx
      cases ha
      exact absurd howner hother
    · obtain rfl := hst hx
      exact absurd hack hphase

theorem claimKept_step (horderly : s.Orderly a) : ClaimKept s a (s.step hexadecimal a) := by
  cases hfile : s.file with
  | some st => exact (change_step a hfile).kept hfile rfl horderly
  | none =>
    have hnone : ∀ {x}, s.file ≠ some x := by
      intro x hx
      rw [hfile] at hx
      cases hx
    exact ⟨fun _ _ hx => absurd hx hnone, fun _ _ _ _ hx => absurd hx hnone,
      fun _ _ _ hx => absurd hx hnone, fun _ hx => absurd hx hnone⟩

/-! ### Settlement -/

/-- Some acknowledgement has reached the position of the stream. -/
def Reached (past : List ReportAction) (e : String × ℕ) : Prop := ∃ a ∈ past, a.Acknowledges e

theorem reached_append {past : List ReportAction} {e : String × ℕ} :
    Reached (past ++ [a]) e ↔ Reached past e ∨ a.Acknowledges e := by
  simp only [Reached, List.mem_append, List.mem_singleton, or_and_right, exists_or,
    exists_eq_left]

/-- **The claim tracks what has been reached** since it was made: it holds the streams that are
left, and is acknowledged when none is. -/
structure Tracks (claimed : Positions) (past : List ReportAction) (st : PendingReportState) :
    Prop where
  settled : st.phase = .acknowledged → ∀ e ∈ claimed.dict, Reached past e
  pending : st.phase ≠ .acknowledged → st.boundary.positions.dict.rows ≠ [] ∧
    ∀ e, e ∈ st.boundary.positions.dict ↔ e ∈ claimed.dict ∧ ¬ Reached past e

variable {claimed : Positions} {past : List ReportAction}

theorem Tracks.quiet (h : Tracks claimed past st) (hboundary : st'.boundary = st.boundary)
    (hphase : st'.phase = .acknowledged ↔ st.phase = .acknowledged)
    (hquiet : st.phase ≠ .acknowledged → ∀ e ∈ st.boundary.positions.dict, ¬ a.Acknowledges e) :
    Tracks claimed (past ++ [a]) st' := by
  constructor
  · intro hack e he
    exact reached_append.mpr (.inl (h.settled (hphase.mp hack) e he))
  · intro hopen
    have hopen' : st.phase ≠ .acknowledged := fun hack => hopen (hphase.mpr hack)
    obtain ⟨hsome, hmem⟩ := h.pending hopen'
    rw [hboundary]
    refine ⟨hsome, fun e => ?_⟩
    rw [reached_append, not_or, ← and_assoc, ← hmem e]
    exact ⟨fun he => ⟨he, hquiet hopen' e he⟩, And.left⟩

/-- **A step keeps the account.** -/
theorem Change.tracks (hchange : Change s st a (some st')) (h : Tracks claimed past st) :
    Tracks claimed (past ++ [a]) st' := by
  cases hchange with
  | same hquiet => exact h.quiet rfl Iff.rfl hquiet
  | takeover hphase hdead => exact h.quiet rfl (by simp [hphase]) fun _ _ _ hack => hack
  | report hphase => exact h.quiet rfl (by simp [hphase]) fun _ _ _ hack => hack
  | @part process raw probed d hphase hraw hleft =>
    have hacks : ∀ e, ReportAction.Acknowledges (.call process (.acknowledge raw) probed) e ↔
        e.2 ≤ d.get e.1 := by
      refine fun e => ⟨fun ⟨d', hd', hle⟩ => ?_, fun hle => ⟨d, hraw, hle⟩⟩
      cases hraw.symm.trans hd'
      exact hle
    refine ⟨fun hack => absurd hack hphase, fun _ => ⟨?_, fun e => ?_⟩⟩
    · obtain ⟨e, he, hbeyond⟩ := hleft
      exact List.ne_nil_of_mem (Table.mem_filter.mpr ⟨he, hbeyond⟩)
    · rw [reached_append, not_or, ← and_assoc, ← (h.pending hphase).2 e, hacks, not_le]
      exact Table.mem_filter
  | all d hphase hraw hreached =>
    refine ⟨fun _ e he => ?_, fun hopen => absurd rfl hopen⟩
    by_cases hpast : Reached past e
    · exact reached_append.mpr (.inl hpast)
    · have hleft := ((h.pending hphase).2 e).mpr ⟨he, hpast⟩
      exact reached_append.mpr (.inr ⟨d, hraw, hreached e hleft⟩)

/-- **Run.**  The account is kept as long as the claim is not removed. -/
theorem Tracks.run {after : List ReportAction} (hfile : s.file = some st)
    (h : Tracks claimed past st)
    (hlives : Machine.Meets (ReportState.step hexadecimal)
      (fun s a => (s.step hexadecimal a).file ≠ none) s after) :
    ∃ st', (ReportState.run hexadecimal s after).file = some st' ∧
      Tracks claimed (past ++ after) st' := by
  induction after generalizing s st past with
  | nil => exact ⟨st, hfile, by rwa [List.append_nil]⟩
  | cons a after ih =>
    obtain ⟨hlive, hrest⟩ := hlives
    obtain ⟨next, hnext⟩ := Option.ne_none_iff_exists'.mp hlive
    have hchange : Change s st a (some next) := hnext ▸ change_step a hfile
    obtain ⟨st', hend, htracks⟩ := ih hnext (hchange.tracks h) hrest
    exact ⟨st', hend, by rwa [List.append_assoc] at htracks⟩

theorem Tracks.acknowledged_iff (h : Tracks claimed past st) :
    st.phase = .acknowledged ↔ ∀ e ∈ claimed.dict, Reached past e := by
  refine ⟨h.settled, fun hall => ?_⟩
  by_contra hopen
  obtain ⟨hsome, hmem⟩ := h.pending hopen
  obtain ⟨e, he⟩ := List.exists_mem_of_ne_nil _ hsome
  obtain ⟨hclaimed, hleft⟩ := (hmem e).mp he
  exact hleft (hall e hclaimed)

theorem tracks_new (hnone : s.file = none) (hnew : (s.step hexadecimal a).file = some st)
    (horderly : s.Orderly a) : Tracks st.boundary.positions [] st := by
  have hkept : ∀ {file' : Option PendingReportState}, file' = s.file → file' ≠ some st := by
    rintro _ rfl hsome
    rw [hnone] at hsome
    cases hsome
  cases a with
  | die process => exact absurd hnew (hkept rfl)
  | call process c probed =>
    cases c with
    | acquire positions version snapshots claimToken =>
      rcases fileAfter_cases s.file (acquirePendingReport hexadecimal process
        (s.liveness probed) claimToken positions version snapshots s.file) with
        ⟨_, -, hafter⟩ | ⟨v, file', hok, hafter⟩
      · exact absurd hnew (hkept hafter)
      rcases acquirePendingReport_cases hok with hsame | ⟨current, hcurrent, -⟩ |
        ⟨-, raw, b, hraw, hb, hclaim⟩
      · exact absurd hnew (hkept (hafter.trans hsame))
      · rw [hnone] at hcurrent
        cases hcurrent
      · cases hnew.symm.trans (hafter.trans hclaim)
        refine ⟨nofun, fun _ => ⟨horderly hnone raw b.positions hraw hb, fun e => ?_⟩⟩
        exact ⟨fun he => ⟨he, fun ⟨_, hin, _⟩ => List.not_mem_nil hin⟩, And.left⟩
    | mark claimToken =>
      rcases fileAfter_cases s.file (markPendingReportReported process claimToken s.file) with
        ⟨_, -, hafter⟩ | ⟨v, file', hok, hafter⟩
      · exact absurd hnew (hkept hafter)
      rcases markPendingReportReported_cases hok with hsame | ⟨current, hcurrent, -⟩
      · exact absurd hnew (hkept (hafter.trans hsame))
      · rw [hnone] at hcurrent
        cases hcurrent
    | acknowledge raw =>
      rcases fileAfter_cases s.file (acknowledgePendingReport raw s.file) with
        ⟨_, -, hafter⟩ | ⟨v, file', hok, hafter⟩
      · exact absurd hnew (hkept hafter)
      obtain ⟨d, -, ⟨hsame, -⟩ | ⟨current, hcurrent, -⟩⟩ := acknowledgePendingReport_cases hok
      · exact absurd hnew (hkept (hafter.trans hsame))
      · rw [hnone] at hcurrent
        cases hcurrent
    | release raw =>
      rcases fileAfter_cases s.file (releasePendingReportClaim raw s.file) with
        ⟨_, -, hafter⟩ | ⟨v, file', hok, hafter⟩
      · exact absurd hnew (hkept hafter)
      rcases releasePendingReportClaim_cases hok with hsame | ⟨current, d, hcurrent, -⟩
      · exact absurd hnew (hkept (hafter.trans hsame))
      · rw [hnone] at hcurrent
        cases hcurrent

/-- **A pending report is owned and settled**: in every run whose steps meet the condition,
each step keeps the claim, and from where a claim is made until it is removed it is
acknowledged exactly when each of its streams has been reached. -/
theorem report_owned_and_settled (hexadecimal : String → Bool) {actions : List ReportAction}
    (hmeets : Machine.Meets (ReportState.step hexadecimal)
      (fun s a => s.Possible a ∧ s.Orderly a) .fresh actions) :
    Machine.Meets (ReportState.step hexadecimal)
      (fun s a => ClaimKept s a (s.step hexadecimal a)) .fresh actions ∧
    ∀ before a after made, actions = before ++ a :: after →
      let s := ReportState.run hexadecimal .fresh before
      s.file = none → (s.step hexadecimal a).file = some made →
        Machine.Meets (ReportState.step hexadecimal)
          (fun s a => (s.step hexadecimal a).file ≠ none) (s.step hexadecimal a) after →
        ∃ st, (ReportState.run hexadecimal .fresh actions).file = some st ∧
          (st.phase = .acknowledged ↔
            ∀ e ∈ made.boundary.positions.dict, ∃ b ∈ after, b.Acknowledges e) := by
  constructor
  · have hstep : ∀ (s : ReportState) (a : ReportAction), True → s.Possible a ∧ s.Orderly a →
        True ∧ ClaimKept s a (s.step hexadecimal a) :=
      fun s a _ hok => ⟨trivial, claimKept_step hok.2⟩
    exact Machine.meets_of_invariant hstep trivial hmeets
  · rintro before a after made rfl s hnone hmade hlives
    obtain ⟨-, hrest⟩ := (Machine.meets_append _).mp hmeets
    obtain ⟨⟨-, horderly⟩, -⟩ := hrest
    obtain ⟨st, hend, htracks⟩ := (tracks_new hnone hmade horderly).run hmade hlives
    refine ⟨st, ?_, htracks.acknowledged_iff⟩
    unfold ReportState.run
    rw [Machine.run_append]
    exact hend

/-! ### A claim that another process releases, and one of no positions -/

def owner : Generation := ⟨1, "owner"⟩

def stranger : Generation := ⟨2, "stranger"⟩

/-- A new claim of these positions by its owner. -/
def claimOf (positions : List (String × ℤ)) : ReportAction :=
  .call owner (.acquire (some positions) none [] "token") true

/-- A claim of two streams, reached one after the other. -/
def acknowledgedInTwo : List ReportAction :=
  [claimOf [("s", 1), ("t", 2)], .call owner (.mark "token") true,
    .call stranger (.acknowledge [("t", 3)]) true, .call stranger (.acknowledge [("s", 1)]) true]

theorem report_owned_and_settled_in_two :
    Machine.Meets (ReportState.step fun _ => true)
      (fun s a => ClaimKept s a (s.step (fun _ => true) a)) .fresh acknowledgedInTwo ∧
    ∀ before a after made, acknowledgedInTwo = before ++ a :: after →
      let s := ReportState.run (fun _ => true) .fresh before
      s.file = none → (s.step (fun _ => true) a).file = some made →
        Machine.Meets (ReportState.step fun _ => true)
          (fun s a => (s.step (fun _ => true) a).file ≠ none) (s.step (fun _ => true) a) after →
        ∃ st, (ReportState.run (fun _ => true) .fresh acknowledgedInTwo).file = some st ∧
          (st.phase = .acknowledged ↔
            ∀ e ∈ made.boundary.positions.dict, ∃ b ∈ after, b.Acknowledges e) := by
  refine report_owned_and_settled (fun _ => true) ⟨⟨List.not_mem_nil, fun _ raw d hraw hd => ?_⟩,
    ⟨List.not_mem_nil, trivial⟩, ⟨List.not_mem_nil, trivial⟩, ⟨List.not_mem_nil, trivial⟩, trivial⟩
  cases hraw
  cases hd
  exact List.cons_ne_nil _ _

/-- **A claim is released by a process that does not own it**, with its positions alone; and an
acknowledgement of a claim without positions leaves it as it was. -/
theorem report_released_by_stranger :
    let step := ReportState.step fun _ => true
    let claimed := step .fresh (claimOf [("s", 1)])
    let bare := step .fresh (claimOf [])
    ¬ ClaimKept claimed (.call stranger (.release [("s", 1)]) true)
        (step claimed (.call stranger (.release [("s", 1)]) true)) ∧
      (step bare (.call stranger (.acknowledge [("s", 1)]) true)).file.map
        PendingReportState.phase = some .claimed := by
  intro step claimed bare
  refine ⟨fun hkept => ?_, rfl⟩
  have hsame := hkept.outsider _ stranger (.release [("s", 1)]) true rfl rfl trivial (by decide)
  cases hsame

end GoalFlight.Wake
