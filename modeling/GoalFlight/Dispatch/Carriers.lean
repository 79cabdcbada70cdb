import GoalFlight.Dispatch.Documents

/-!
# Dispatch: the carriers in the queue directory

A dispatch that waits has an envelope `<id>.json` in the queue directory; a pass that takes
it renames the envelope to a claim `<id>.json.claimed-…`.  `_build_queue_carrier_index`
lists the directory, files every envelope and claim under a dispatch and says of each claim
whether the processes it names are live, dead or unknown.
-/

namespace GoalFlight.Dispatch

open Json

/-! ### Files -/

/-- The names the index looks at, with the dispatch the name is for: envelopes end in
`.json`, claims have `.json.claimed-` inside and do not end in `.failed`. -/
inductive QueueFileName
  | envelope (stem : String)
  | claim (stem : String)
  | other

/-- What a queue file reads as. -/
inductive QueueFileContent
  | unreadable
  | notDict
  | entry (e : QueueEntry)
deriving DecidableEq

/-- A file of the queue directory. -/
structure QueueFile where
  path : String
  name : QueueFileName
  content : QueueFileContent

/-- The queue directory as a pass lists it.  A file whose bytes are not UTF-8 makes the
listing raise. -/
inductive QueueListing
  | unreadable
  | raised
  | files (fs : List QueueFile)

/-! ### Claims -/

/-- `ClaimCarrierKind`. -/
inductive CarrierKind
  | none
  | queued
  | live
  | dead
  | unknown
deriving DecidableEq

/-- The identity has a start token. -/
def hasStartToken (identity : Value) : Bool :=
  identity.isDict && (identity.get "start_token").truthy

/-- The processes a claim names. -/
def QueueEntry.claimProbes (e : QueueEntry) : List (Value × Value) :=
  [(e.queueClaimerPid, e.queueClaimerIdentity), (e.queueLauncherPid, e.queueLauncherIdentity)].filter
    fun probe => ¬ probe.1.isAbsent

/-- One process of a claim. -/
def Host.probeKind (h : Host) (probe : Value × Value) : CarrierKind :=
  if pidOf probe.1 = none then .unknown
  else if ¬ hasStartToken probe.2 then .unknown
  else
    match (h.queueClaimIdentityStatus probe.1 probe.2).1 with
    | .live => .live
    | .dead => .dead
    | _ => .unknown

/-- `_adjudicate_claim_marker`.  A claim that names no process has only the pid of its file
name, which has no start token. -/
def Host.adjudicateClaimMarker (h : Host) (observed : Option QueueEntry) : CarrierKind :=
  let kinds := ((observed.map QueueEntry.claimProbes).getD []).map h.probeKind
  if .live ∈ kinds then .live
  else if .unknown ∈ kinds then .unknown
  else if .dead ∈ kinds then .dead
  else .unknown

/-! ### The index -/

/-- A carrier of one dispatch. -/
structure CarrierStatus where
  kind : CarrierKind
  file : QueueFile

/-- The dispatch an entry belongs to, when it does not say so itself. -/
def QueueEntry.dispatchIdOr (e : QueueEntry) (stem : String) : String :=
  if e.dispatchId = "" then stem else e.dispatchId

/-- The envelopes filed under a dispatch. -/
def envelopeStatus (id : String) (f : QueueFile) : Option CarrierStatus :=
  match f.name, f.content with
  | .envelope stem, .unreadable => if stem = id then some ⟨.queued, f⟩ else none
  | .envelope stem, .entry e => if e.dispatchIdOr stem = id then some ⟨.queued, f⟩ else none
  | _, _ => none

/-- The claims filed under a dispatch. -/
def Host.claimStatus (h : Host) (id : String) (f : QueueFile) : Option CarrierStatus :=
  match f.name, f.content with
  | .claim stem, .unreadable =>
    if stem = id then some ⟨h.adjudicateClaimMarker none, f⟩ else none
  | .claim stem, .entry e =>
    if e.dispatchIdOr stem = id then some ⟨h.adjudicateClaimMarker (some e), f⟩ else none
  | _, _ => none

/-- `index.carriers_by_id`. -/
def Host.carriersById (h : Host) (files : List QueueFile) (id : String) : List CarrierStatus :=
  if id = "" then [] else files.filterMap (envelopeStatus id) ++ files.filterMap (h.claimStatus id)

/-- `_prefer_claim_carrier`. -/
def preferClaimCarrier (statuses : List CarrierStatus) : CarrierKind :=
  let kinds := statuses.map CarrierStatus.kind
  if .live ∈ kinds then .live
  else if .queued ∈ kinds then .queued
  else if .unknown ∈ kinds then .unknown
  else if .dead ∈ kinds then .dead
  else .none

/-- `_claim_has_active_carrier`; no value where the listing raises. -/
def Host.claimHasActiveCarrier (h : Host) (queue : QueueListing) (id : String) :
    Option CarrierKind :=
  if id = "" then some .none
  else
    match queue with
    | .raised => Option.none
    | .unreadable => some .unknown
    | .files fs => some (preferClaimCarrier (h.carriersById fs id))

theorem Host.kind_ne_none_of_mem {h : Host} {files : List QueueFile} {id : String}
    {s : CarrierStatus} (hs : s ∈ h.carriersById files id) : s.kind ≠ .none := by
  have hadjudicate : ∀ observed, h.adjudicateClaimMarker observed ≠ .none := by
    intro observed
    unfold Host.adjudicateClaimMarker
    dsimp only
    split
    · simp
    · split
      · simp
      · split <;> simp
  unfold Host.carriersById at hs
  split at hs
  · cases hs
  · rw [List.mem_append, List.mem_filterMap, List.mem_filterMap] at hs
    obtain ⟨f, -, hf⟩ | ⟨f, -, hf⟩ := hs
    · unfold envelopeStatus at hf
      split at hf
      · split at hf <;> cases hf
        simp
      · split at hf <;> cases hf
        simp
      · cases hf
    · unfold Host.claimStatus at hf
      split at hf
      · split at hf <;> cases hf
        exact hadjudicate none
      · rename_i e _ _
        split at hf <;> cases hf
        exact hadjudicate (some e)
      · cases hf

/-- **No carrier is found** exactly when the directory was listed and holds none. -/
theorem Host.claimHasActiveCarrier_eq_none_iff {h : Host} {queue : QueueListing} {id : String}
    (hid : id ≠ "") :
    h.claimHasActiveCarrier queue id = some .none ↔
      ∃ fs, queue = .files fs ∧ h.carriersById fs id = [] := by
  unfold Host.claimHasActiveCarrier
  rw [if_neg hid]
  cases queue with
  | unreadable => simp
  | raised => simp
  | files fs =>
    constructor
    · intro hnone
      refine ⟨fs, rfl, ?_⟩
      by_contra hne
      obtain ⟨s, hs⟩ := List.exists_mem_of_ne_nil _ hne
      have hkind := h.kind_ne_none_of_mem hs
      have hmem : s.kind ∈ (h.carriersById fs id).map CarrierStatus.kind :=
        List.mem_map_of_mem hs
      simp only [preferClaimCarrier, Option.some.injEq] at hnone
      split at hnone
      · cases hnone
      · rename_i hlive
        split at hnone
        · cases hnone
        · rename_i hqueued
          split at hnone
          · cases hnone
          · rename_i hunknown
            split at hnone
            · cases hnone
            · rename_i hdead
              cases hk : s.kind with
              | none => exact hkind hk
              | queued => exact hqueued (hk ▸ hmem)
              | live => exact hlive (hk ▸ hmem)
              | dead => exact hdead (hk ▸ hmem)
              | unknown => exact hunknown (hk ▸ hmem)
    · rintro ⟨fs', hfs, hempty⟩
      obtain rfl := QueueListing.files.inj hfs
      simp [hempty, preferClaimCarrier]

end GoalFlight.Dispatch
