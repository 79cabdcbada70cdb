import GoalFlight.Watch.Markers
import GoalFlight.Tasks.Items
import Mathlib.Data.List.Infix

/-!
# The watcher: causes of death

When a worker is gone without a marker, the end of its log may say why: the network signatures,
each in a line of its own, or the exact line of a provider limit.
-/

namespace GoalFlight.Watch

/-- The causes that a log can show. -/
inductive DeathCause
  | upstreamNetwork
  | providerLimit
deriving DecidableEq

/-- `_UPSTREAM_NETWORK_DEATH_SEQUENCE`. -/
def upstreamNetworkDeathSequence : List Line :=
  ["failed to lookup address information: nodename nor servname provided".toList,
    "stream disconnected before completion".toList, "error: reconnecting... 5/5".toList]

/-- `_UPSTREAM_NETWORK_DEATH_NOISE`. -/
def upstreamNetworkDeathNoise : List Line :=
  ["reconnecting".toList, "stream disconnected before completion".toList,
    "failed to lookup address information".toList, "falling back from websockets".toList]

/-! ### Patterns -/

/-- One of these words, ignoring case. -/
def afterOneOf? (words : List String) (text : Line) : Option Line :=
  words.findSome? fun word => afterAnyCase? word.toList text

/-- `[0-9]{least,most}`, before something that is not a digit. -/
def afterDigits? (least most : ℕ) (text : Line) : Option Line :=
  let digits := text.takeWhile Char.isDigit
  if least ≤ digits.length ∧ digits.length ≤ most then some (text.drop digits.length) else none

/-- The first of `_PROVIDER_LIMIT_DEATH_LINE_PATTERNS`. -/
def isCapacityLine (line : Line) : Bool :=
  ((afterAnyCase? "error:".toList line).bind fun rest => afterAnyCase?
    "selected model is at capacity. please try a different model.".toList (lstrip rest)) = some []

/-- `[0-9]{1,2}:[0-9]{2}\s*(?:am|pm)`. -/
def afterTime? (text : Line) : Option Line :=
  (((afterDigits? 1 2 text).bind (after? [':'])).bind (afterDigits? 2 2)).bind fun rest =>
    afterOneOf? ["am", "pm"] (lstrip rest)

/-- `(?:jan|…|dec)\s+[0-9]{1,2}(?:st|nd|rd|th)`. -/
def afterDate? (text : Line) : Option Line :=
  (((afterOneOf? ["jan", "feb", "mar", "apr", "may", "jun", "jul", "aug", "sep", "oct", "nov", "dec"]
    text).bind afterBlanks?).bind (afterDigits? 1 2)).bind (afterOneOf? ["st", "nd", "rd", "th"])

/-- The second of `_PROVIDER_LIMIT_DEATH_LINE_PATTERNS`. -/
def isUsageLimitLine (line : Line) : Bool :=
  let body := ((afterAnyCase? "error:".toList line).map lstrip).getD line
  let reset := (((afterAnyCase? "you".toList body).bind (afterOneOf? ["'", "’"])).bind
    (afterAnyCase? "ve hit your usage limit. please try again at".toList)).bind afterBlanks?
  [reset.bind afterTime?, reset.bind afterDate?].any fun rest => rest.any (dropOne '.' · = [])

/-- `any(pattern.fullmatch(line) for pattern in _PROVIDER_LIMIT_DEATH_LINE_PATTERNS)`. -/
def isProviderLimitLine (line : Line) : Bool := isCapacityLine line || isUsageLimitLine line

example : isProviderLimitLine
    "You’ve hit your usage limit. Please try again at  11:05 PM.".toList = true := by decide +kernel

/-- `_PROVIDER_LIMIT_TOKEN_HEADER_PATTERN`. -/
def isTokenHeader (line : Line) : Bool :=
  (afterAnyCase? "tokens used".toList line).any (dropOne ':' · = [])

/-- `_PROVIDER_LIMIT_TOKEN_COUNT_PATTERN`. -/
def isProviderTokenCount : Line → Bool
  | [] => false
  | c :: rest => c.isDigit && rest.all fun d => d.isDigit || d = ','

/-- `provider_suffix_is_observed_footer`. -/
def isObservedFooter : List Line → Bool
  | [] => true
  | [header, count] => isTokenHeader header && isProviderTokenCount count
  | _ => false

/-! ### The classification -/

/-- The lines after the first line that completes the signatures, each looked for in the lines
after the one before it. -/
def afterSequence? : List Line → List Line → Option (List Line)
  | [], lines => some lines
  | _ :: _, [] => none
  | signature :: remaining, line :: lines =>
    if signature <:+: line then afterSequence? remaining lines
    else afterSequence? (signature :: remaining) lines

/-- A line that says more of the same failure. -/
def IsNoise (line : Line) : Prop := ∃ noise ∈ upstreamNetworkDeathNoise, noise <:+: line

instance : DecidablePred IsNoise := fun line =>
  inferInstanceAs (Decidable (∃ noise ∈ upstreamNetworkDeathNoise, noise <:+: line))

/-- The lines after the last exact line of a provider limit. -/
def afterProviderLimit? : List Line → Option (List Line)
  | [] => none
  | line :: lines =>
    match afterProviderLimit? lines with
    | some suffix => some suffix
    | none => if isProviderLimitLine line then some lines else none

section Classification

variable (casefold : Line → Line)

/-- The lines of a text that are not blank, without the blanks around them. -/
def deathLines (text : Line) : List Line :=
  ((Tasks.strBreaks.lines text).map strip).filter (· ≠ [])

/-- The set `matches`. -/
def deathMatches (lines : List Line) : List DeathCause :=
  (if (afterSequence? upstreamNetworkDeathSequence (lines.map casefold)).any
      (·.all (IsNoise ·)) then [.upstreamNetwork] else []) ++
    if (afterProviderLimit? lines).any isObservedFooter then [.providerLimit] else []

/-- `classify_worker_death_text`; `WORKER_DEATH_CAUSE_NO_EVIDENCE` is none. -/
def classifyWorkerDeathText (text : Line) : Option DeathCause :=
  match deathMatches casefold (deathLines text) with
  | [cause] => some cause
  | _ => none

end Classification

/-! ### What a log shows -/

/-- The signatures occur in this order in distinct lines, and `rest` are the lines after the last
of them. -/
def Occurs : List Line → List Line → List Line → Prop
  | [], lines, rest => lines = rest
  | signature :: remaining, lines, rest => ∃ before line after,
      lines = before ++ line :: after ∧ signature <:+: line ∧ Occurs remaining after rest

/-- **What the end of a log shows.** -/
def Ends (casefold : Line → Line) (lines : List Line) : DeathCause → Prop
  | .upstreamNetwork => ∃ rest, Occurs upstreamNetworkDeathSequence (lines.map casefold) rest ∧
      ∀ line ∈ rest, IsNoise line
  | .providerLimit => ∃ before line after, lines = before ++ line :: after ∧
      isProviderLimitLine line = true ∧ (∀ other ∈ after, isProviderLimitLine other = false) ∧
      (after = [] ∨ ∃ header count, after = [header, count] ∧ isTokenHeader header = true ∧
        isProviderTokenCount count = true)

/-- **The cause is read exactly**: each cause is found if the end of the log shows it, and the one
that is shown alone is returned. -/
def ReadExactly (casefold : Line → Line) (text : Line) : Prop :=
  (∀ cause, cause ∈ deathMatches casefold (deathLines text) ↔ Ends casefold (deathLines text) cause) ∧
    ∀ cause, classifyWorkerDeathText casefold text = some cause ↔
      Ends casefold (deathLines text) cause ∧
        ∀ other, Ends casefold (deathLines text) other → other = cause

/-- The worker did not go on after a complete occurrence before one that runs to the end. -/
def NotRelapsed (casefold : Line → Line) (lines : List Line) : Prop :=
  Ends casefold lines .upstreamNetwork →
    ∀ rest, Occurs upstreamNetworkDeathSequence (lines.map casefold) rest →
      ∀ line ∈ rest, IsNoise line

/-! ### The first occurrence -/

theorem occurs_of_afterSequence {sequence lines rest : List Line}
    (h : afterSequence? sequence lines = some rest) : Occurs sequence lines rest := by
  induction lines generalizing sequence with
  | nil =>
    cases sequence with
    | nil => exact Option.some.inj h
    | cons signature remaining => cases h
  | cons line lines ih =>
    cases sequence with
    | nil => exact Option.some.inj h
    | cons signature remaining =>
      unfold afterSequence? at h
      split at h
      · rename_i hhit
        exact ⟨[], line, lines, rfl, hhit, ih h⟩
      · obtain ⟨before, hit, after, hlines, hhit, hoccurs⟩ := ih h
        exact ⟨line :: before, hit, after, by rw [hlines]; rfl, hhit, hoccurs⟩

/-- **No occurrence is complete before the first.** -/
theorem suffix_of_occurs {sequence lines tail rest : List Line} (htail : tail <:+ lines)
    (h : Occurs sequence tail rest) :
    ∃ first, afterSequence? sequence lines = some first ∧ rest <:+ first := by
  induction lines generalizing sequence tail with
  | nil =>
    obtain rfl := List.suffix_nil.mp htail
    cases sequence with
    | nil => exact ⟨[], rfl, h ▸ List.suffix_rfl⟩
    | cons signature remaining =>
      obtain ⟨before, hit, after, htail, _⟩ := h
      simp at htail
  | cons line lines ih =>
    cases sequence with
    | nil => exact ⟨line :: lines, rfl, h ▸ htail⟩
    | cons signature remaining =>
      obtain ⟨before, hit, after, rfl, hhit, hoccurs⟩ := h
      unfold afterSequence?
      split
      · -- the remaining signatures are looked for in these lines at least
        have hafter : after <:+ lines := by
          rcases List.suffix_cons_iff.mp htail with heq | hsuffix
          · cases before with
            | nil => exact (List.cons.inj heq).2 ▸ List.suffix_rfl
            | cons b before => exact ⟨before ++ [hit], by simpa using (List.cons.inj heq).2⟩
          · exact ((List.suffix_cons hit after).trans (List.suffix_append before _)).trans hsuffix
        exact ih hafter hoccurs
      · rename_i hmiss
        rcases List.suffix_cons_iff.mp htail with heq | hsuffix
        · cases before with
          | nil => exact absurd ((List.cons.inj heq).1 ▸ hhit) hmiss
          | cons b before =>
            exact ih List.suffix_rfl ⟨before, hit, after, (List.cons.inj heq).2.symm, hhit, hoccurs⟩
        · exact ih hsuffix ⟨before, hit, after, rfl, hhit, hoccurs⟩

variable {casefold : Line → Line} {text : Line} {lines suffix : List Line}

theorem mem_deathMatches_upstream : .upstreamNetwork ∈ deathMatches casefold lines ↔
    ∃ first, afterSequence? upstreamNetworkDeathSequence (lines.map casefold) = some first ∧
      ∀ line ∈ first, IsNoise line := by
  unfold deathMatches
  rw [List.mem_append]
  simp [Option.any_eq_true]

/-- **The network is found** if the end of the log shows it, unless the worker went on after an
earlier occurrence. -/
theorem mem_deathMatches_upstream_iff (h : NotRelapsed casefold lines) :
    .upstreamNetwork ∈ deathMatches casefold lines ↔ Ends casefold lines .upstreamNetwork := by
  rw [mem_deathMatches_upstream]
  constructor
  · rintro ⟨first, hfirst, hnoise⟩
    exact ⟨first, occurs_of_afterSequence hfirst, hnoise⟩
  · intro hends
    obtain ⟨rest, hoccurs, -⟩ := id hends
    obtain ⟨first, hfirst, -⟩ := suffix_of_occurs List.suffix_rfl hoccurs
    exact ⟨first, hfirst, h hends first (occurs_of_afterSequence hfirst)⟩

theorem notRelapsed_of_mem (h : .upstreamNetwork ∈ deathMatches casefold lines) :
    NotRelapsed casefold lines := by
  obtain ⟨first, hfirst, hnoise⟩ := mem_deathMatches_upstream.mp h
  intro _ rest hoccurs line hline
  obtain ⟨first', hfirst', hsuffix⟩ := suffix_of_occurs List.suffix_rfl hoccurs
  cases hfirst.symm.trans hfirst'
  exact hnoise line (hsuffix.subset hline)

/-! ### The last exact line -/

theorem afterProviderLimit_eq_none :
    afterProviderLimit? lines = none ↔ ∀ line ∈ lines, isProviderLimitLine line = false := by
  induction lines with
  | nil => exact ⟨fun _ => nofun, fun _ => rfl⟩
  | cons line lines ih =>
    unfold afterProviderLimit?
    cases hlater : afterProviderLimit? lines with
    | some suffix =>
      refine ⟨nofun, fun hnone => ?_⟩
      rw [ih.mpr fun other hother => hnone other (List.mem_cons_of_mem _ hother)] at hlater
      cases hlater
    | none =>
      rw [List.forall_mem_cons]
      simpa using fun _ => ih.mp hlater

theorem afterProviderLimit_eq_some : afterProviderLimit? lines = some suffix ↔
    ∃ before line, lines = before ++ line :: suffix ∧ isProviderLimitLine line = true ∧
      ∀ other ∈ suffix, isProviderLimitLine other = false := by
  induction lines with
  | nil => simp [afterProviderLimit?]
  | cons line lines ih =>
    unfold afterProviderLimit?
    cases hlater : afterProviderLimit? lines with
    | some found =>
      rw [hlater] at ih
      rw [ih]
      constructor
      · rintro ⟨before, hit, rfl, hrest⟩
        exact ⟨line :: before, hit, rfl, hrest⟩
      · rintro ⟨before, hit, hlines, hhit, hlast⟩
        cases before with
        | nil =>
          rw [(List.cons.inj hlines).2, afterProviderLimit_eq_none.mpr hlast] at hlater
          cases hlater
        | cons b before => exact ⟨before, hit, (List.cons.inj hlines).2, hhit, hlast⟩
    | none =>
      have hnone := afterProviderLimit_eq_none.mp hlater
      dsimp only
      constructor
      · intro h
        split at h
        · rename_i hline
          cases h
          exact ⟨[], line, rfl, hline, hnone⟩
        · cases h
      · rintro ⟨before, hit, hlines, hhit, -⟩
        cases before with
        | nil =>
          obtain ⟨rfl, rfl⟩ := List.cons.inj hlines
          rw [if_pos hhit]
        | cons b before =>
          have hmem : hit ∈ lines := by
            rw [(List.cons.inj hlines).2]
            simp
          rw [hnone hit hmem] at hhit
          cases hhit

theorem isObservedFooter_iff : isObservedFooter suffix = true ↔ suffix = [] ∨
    ∃ header count, suffix = [header, count] ∧ isTokenHeader header = true ∧
      isProviderTokenCount count = true := by
  unfold isObservedFooter
  split
  · simp
  · simp
  · rename_i hnil hpair
    constructor
    · rintro ⟨⟩
    · rintro (rfl | ⟨header, count, rfl, -⟩)
      · exact absurd rfl hnil
      · exact absurd rfl (hpair header count)

/-- **A provider limit is found** exactly if the end of the log shows it. -/
theorem mem_deathMatches_provider_iff :
    .providerLimit ∈ deathMatches casefold lines ↔ Ends casefold lines .providerLimit := by
  unfold deathMatches
  rw [List.mem_append]
  constructor
  · intro h
    have hfound : (afterProviderLimit? lines).any isObservedFooter = true := by simpa using h
    obtain ⟨suffix, hsuffix, hfooter⟩ := (Option.any_eq_true _ _).mp hfound
    obtain ⟨before, line, hlines, hline, hlast⟩ := afterProviderLimit_eq_some.mp hsuffix
    exact ⟨before, line, suffix, hlines, hline, hlast, isObservedFooter_iff.mp hfooter⟩
  · rintro ⟨before, line, suffix, hlines, hline, hlast, hfooter⟩
    rw [afterProviderLimit_eq_some.mpr ⟨before, line, hlines, hline, hlast⟩]
    simp [isObservedFooter_iff.mpr hfooter]

/-! ### The cause -/

theorem classifyWorkerDeathText_eq_some {cause : DeathCause} :
    classifyWorkerDeathText casefold text = some cause ↔
      cause ∈ deathMatches casefold (deathLines text) ∧
        ∀ other, other ∈ deathMatches casefold (deathLines text) → other = cause := by
  unfold classifyWorkerDeathText deathMatches
  generalize (afterSequence? upstreamNetworkDeathSequence _).any _ = network
  generalize (afterProviderLimit? _).any _ = limit
  cases network <;> cases limit <;> cases cause <;> simp

/-- **The cause is read exactly** if and only if the worker did not go on after a complete
occurrence of the network signatures before one that runs to the end of the log. -/
theorem readExactly_iff : ReadExactly casefold text ↔ NotRelapsed casefold (deathLines text) := by
  constructor
  · intro h hends
    exact notRelapsed_of_mem ((h.1 .upstreamNetwork).mpr hends) hends
  · intro h
    have hmatches : ∀ cause, cause ∈ deathMatches casefold (deathLines text) ↔
        Ends casefold (deathLines text) cause := by
      intro cause
      cases cause with
      | upstreamNetwork => exact mem_deathMatches_upstream_iff h
      | providerLimit => exact mem_deathMatches_provider_iff
    refine ⟨hmatches, fun cause => ?_⟩
    rw [classifyWorkerDeathText_eq_some]
    simp only [hmatches]

/-- A log whose worker came back after the first loss of the network, and not after the second. -/
def relapsedLog : Line :=
  ("failed to lookup address information: nodename nor servname provided\n" ++
    "stream disconnected before completion\nERROR: Reconnecting... 5/5\n" ++
    "resumed, running the tests\n" ++
    "failed to lookup address information: nodename nor servname provided\n" ++
    "stream disconnected before completion\nERROR: Reconnecting... 5/5\n").toList

/-- The first occurrence is complete, the worker went on after it, and the second is not looked
for. -/
theorem not_readExactly_relapsed : ¬ ReadExactly (List.map Char.toLower) relapsedLog := by
  intro h
  have hnone : .upstreamNetwork ∉ deathMatches (List.map Char.toLower) (deathLines relapsedLog) := by
    decide +kernel
  refine hnone ((h.1 .upstreamNetwork).mpr ⟨[], ?_, nofun⟩)
  -- the last three of the seven lines are the signatures
  have hlines : (deathLines relapsedLog).map (List.map Char.toLower) =
      ((deathLines relapsedLog).map (List.map Char.toLower)).take 4 ++
        upstreamNetworkDeathSequence := by
    decide +kernel
  exact ⟨_, _, _, hlines, List.infix_rfl, [], _, _, rfl, List.infix_rfl, [], _, _, rfl,
    List.infix_rfl, rfl⟩

end GoalFlight.Watch
