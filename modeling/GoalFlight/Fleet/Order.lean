import GoalFlight.Fleet.Readable
import GoalFlight.Library.Machine

/-!
# Fleet: a mirror goes forward

The statuses of one dispatch are written one after the other, by one worker and then by the next;
each fetch brings any of them that was written so far.  A mirror is to go forward: what was written
before the status or the verdict that it has is refused (`MovesOn`), and what was written after all
that were accepted is not.

Only numbers decide, and they are not on one scale; epochs are compared, but not ordered.  Where the
numbers say what the order of writing says (`NumberedAsWritten`), the mirror goes forward, and only
there: `mirror_moves_on_iff`.
-/

namespace GoalFlight.Fleet

open Json

variable {i : ℕ} {held : Reading}

/-! ### Runs -/

/-- Where what a mirror has comes from. -/
inductive Origin
  /-- The `i`-th status. -/
  | document (i : ℕ)
  /-- A verdict, made when so many statuses were written. -/
  | verdict (written : ℕ)
deriving DecidableEq

/-- A status that was written before it. -/
def Origin.After (i : ℕ) : Origin → Prop
  | .document j => i < j
  | .verdict written => i < written

instance (i : ℕ) (o : Origin) : Decidable (o.After i) := by
  cases o <;> exact inferInstanceAs (Decidable (_ < _))

/-- A mirror, with its history. -/
structure MirrorState where
  file : MirrorFile
  origin : Option Origin
  /-- How many statuses were written. -/
  written : ℕ
  /-- The statuses that were ingested. -/
  accepted : List ℕ

variable {s : MirrorState}

/-- There is no mirror, and no status. -/
def MirrorState.start : MirrorState := ⟨.missing, none, 0, []⟩

/-- What can happen. -/
inductive MirrorAction
  /-- The worker writes its next status. -/
  | publish
  /-- A fetch brings the `i`-th status, if it was written. -/
  | ingest (i : ℕ) (source : EpochSource)
  /-- The fleet makes a verdict. -/
  | verdict (v : Verdict) (now : String) (source : EpochSource)

variable (isoSeconds : String → Option ℤ) (dispatchId : String) (statuses : ℕ → Option Document)

namespace MirrorState

/-- The mirror after a status. -/
def ingest (s : MirrorState) (i : ℕ) (source : EpochSource) : MirrorState :=
  match Fleet.ingest isoSeconds dispatchId s.file (statuses i) with
  | .ingested r =>
    { s with
      file := writeStatus s.file source r.payload
      origin := some (.document i)
      accepted := i :: s.accepted }
  | _ => s

/-- One step. -/
def step (s : MirrorState) : MirrorAction → MirrorState
  | .publish => { s with written := s.written + 1 }
  | .ingest i source => if i < s.written then s.ingest isoSeconds dispatchId statuses i source else s
  | .verdict v now source =>
    (writeVerdict isoSeconds dispatchId now source s.file v).elim s fun file =>
      { s with file := file, origin := some (.verdict s.written) }

/-- A status is accepted: it replaces the mirror. -/
def accepts (s : MirrorState) (i : ℕ) : Bool :=
  match Fleet.ingest isoSeconds dispatchId s.file (statuses i) with
  | .ingested _ => true
  | _ => false

/-- **Forward**: no status replaces one that was written after it, or a verdict made after it; and
a status that was written after all that were ingested replaces the one that the mirror has. -/
def MovesOn (s : MirrorState) : MirrorAction → Prop
  | .ingest i _ => i < s.written → ∀ o, s.origin = some o →
      (o.After i → s.accepts isoSeconds dispatchId statuses i = false) ∧
        (∀ j, o = .document j → (∀ k ∈ s.accepted, k < i) →
          s.accepts isoSeconds dispatchId statuses i = true)
  | _ => True

theorem accepts_iff_ingested :
    s.accepts isoSeconds dispatchId statuses i = true ↔
      ∃ r, Fleet.ingest isoSeconds dispatchId s.file (statuses i) = .ingested r := by
  unfold accepts
  split
  · rename_i r hr
    exact iff_of_true rfl ⟨r, hr⟩
  · rename_i hnone
    exact iff_of_false Bool.false_ne_true fun ⟨r, hr⟩ => hnone r hr

theorem ingest_of_refused (h : s.accepts isoSeconds dispatchId statuses i = false)
    (source : EpochSource) :
    s.ingest isoSeconds dispatchId statuses i source = s := by
  unfold ingest
  split
  · rename_i r hr
    exact absurd ((accepts_iff_ingested isoSeconds dispatchId statuses).mpr ⟨r, hr⟩)
      (by rw [h]; exact Bool.false_ne_true)
  · rfl

theorem ingest_of_accepted (h : s.accepts isoSeconds dispatchId statuses i = true)
    (source : EpochSource) :
    ∃ r, Fleet.ingest isoSeconds dispatchId s.file (statuses i) = .ingested r ∧
      s.ingest isoSeconds dispatchId statuses i source =
        { s with
          file := writeStatus s.file source r.payload
          origin := some (.document i)
          accepted := i :: s.accepted } := by
  obtain ⟨r, hr⟩ := (accepts_iff_ingested isoSeconds dispatchId statuses).mp h
  refine ⟨r, hr, ?_⟩
  unfold ingest
  rw [hr]

end MirrorState

/-! ### What the numbers say -/

/-- What a status says of its place, and whether it names an epoch. -/
structure Placed where
  rawHadEpoch : Bool
  reading : Reading

/-- The status reads as one of the dispatch. -/
def placed (content : Option Document) : Option Placed :=
  match prepareRemoteContentForDispatch dispatchId content with
  | some (.json d) => do
      let payload ← mapping? d
      let reading ← (normalizeStatusPayload isoSeconds payload).toOption
      return ⟨(payload.get? "epoch").isSome, reading⟩
  | _ => none

/-- A new worker from before the epochs: a lower number, of another birth. -/
structure Reborn (incoming : Placed) (held : Reading) : Prop where
  unnamed : incoming.rawHadEpoch = false
  incoming_legacy : incoming.reading.epoch = legacyEpoch
  held_legacy : held.epoch = legacyEpoch
  seq : incoming.reading.seq < held.seq
  birth : lineageIdentityChanged incoming.reading.lineageIdentity held.lineageIdentity = true

/-- By its numbers the status is behind what the mirror has: it is of the same epoch, its number is
no greater, and it is no new worker's. -/
structure Behind (incoming : Placed) (held : Reading) : Prop where
  epoch : incoming.reading.epoch = held.epoch
  seq : incoming.reading.seq ≤ held.seq
  birth : ¬ Reborn incoming held

/-- By its numbers the status is ahead of what the mirror has: it is of another epoch, or its number
is greater, or it is a new worker's. -/
def Ahead (incoming : Placed) (held : Reading) : Prop :=
  incoming.reading.epoch ≠ held.epoch ∨ held.seq < incoming.reading.seq ∨ Reborn incoming held

theorem legacyLineageResetAllowed_iff {incoming : Placed} :
    legacyLineageResetAllowed incoming.rawHadEpoch incoming.reading held = true ↔
      Reborn incoming held := by
  unfold legacyLineageResetAllowed
  simp only [Bool.and_eq_true, Bool.not_eq_true', decide_eq_true_eq]
  constructor
  · rintro ⟨⟨⟨⟨hraw, hincoming⟩, hheld⟩, hseq⟩, hbirth⟩
    exact ⟨hraw, hincoming, hheld, hseq, hbirth⟩
  · rintro ⟨hraw, hincoming, hheld, hseq, hbirth⟩
    exact ⟨⟨⟨⟨hraw, hincoming⟩, hheld⟩, hseq⟩, hbirth⟩

theorem follows_iff {incoming : Placed} :
    follows incoming.rawHadEpoch incoming.reading held = true ↔ Ahead incoming held := by
  unfold follows Ahead
  rw [Bool.or_eq_true, Bool.or_eq_true, decide_eq_true_eq, decide_eq_true_eq,
    legacyLineageResetAllowed_iff, or_assoc]

theorem not_ahead_iff {incoming : Placed} :
    ¬ Ahead incoming held ↔ Behind incoming held := by
  unfold Ahead
  push Not
  exact ⟨fun h => ⟨h.1, h.2.1, h.2.2⟩, fun h => ⟨h.epoch, h.seq, h.birth⟩⟩

variable {isoSeconds dispatchId statuses}

/-- **What is ingested**: a status of the dispatch, ahead of what the mirror has. -/
theorem ingest_eq_ingested_iff {file : MirrorFile} (hfile : file.Readable)
    {content : Option Document} {r : Reading} :
    Fleet.ingest isoSeconds dispatchId file content = .ingested r ↔
      ∃ named, placed isoSeconds dispatchId content = some ⟨named, r⟩ ∧
        ∀ held, readStatusMirror isoSeconds file none = .ok held → Ahead ⟨named, r⟩ held := by
  have hlast : ∀ last : Except Refusal Reading, (∀ named, (last.toOption.all (follows named r)) = true ↔
      ∀ held, last = .ok held → Ahead ⟨named, r⟩ held) := by
    intro last named
    cases last with
    | error e => simp [Except.toOption]
    | ok held =>
      have hfollows := @follows_iff held ⟨named, r⟩
      simp only at hfollows
      simp [Except.toOption, hfollows]
  unfold Fleet.ingest
  split
  · rename_i hraised
    rcases hfile.missing_or_reading isoSeconds with rfl | ⟨held, hread⟩
    · cases hraised
    · rw [hread] at hraised
      cases hraised
  · unfold placed
    cases prepareRemoteContentForDispatch dispatchId content with
    | none => simp
    | some staging =>
      simp only [ofValidation_eq_ingested_iff, readStatusMirror_eq_ok_iff, hlast]
      constructor
      · rintro ⟨d, payload, rfl, hm, hr, hahead⟩
        exact ⟨(payload.get? "epoch").isSome, by simp [hm, hr, Except.toOption], hahead⟩
      · rintro ⟨named, hplaced, hahead⟩
        cases staging with
        | missing => cases hplaced
        | garbled => cases hplaced
        | json d =>
          obtain ⟨payload, hm, hplaced⟩ := Option.bind_eq_some_iff.mp hplaced
          obtain ⟨reading, hreading, hplaced⟩ := Option.bind_eq_some_iff.mp hplaced
          cases hplaced
          cases hr : normalizeStatusPayload isoSeconds payload with
          | error e =>
            rw [hr] at hreading
            cases hreading
          | ok r' =>
            rw [hr] at hreading
            cases hreading
            exact ⟨d, payload, rfl, hm, hr, hahead⟩

theorem accepts_iff (hfile : s.file.Readable)
    (h : readStatusMirror isoSeconds s.file none = .ok held) :
    s.accepts isoSeconds dispatchId statuses i = true ↔
      ∃ incoming, placed isoSeconds dispatchId (statuses i) = some incoming ∧
        Ahead incoming held := by
  rw [MirrorState.accepts_iff_ingested]
  simp only [ingest_eq_ingested_iff hfile, h, Except.ok.injEq, forall_eq']
  constructor
  · rintro ⟨r, named, hplaced, hahead⟩
    exact ⟨⟨named, r⟩, hplaced, hahead⟩
  · rintro ⟨incoming, hplaced, hahead⟩
    exact ⟨incoming.reading, incoming.rawHadEpoch, hplaced, hahead⟩

/-! ### Reachable mirrors -/

/-- **The invariant**: a mirror reads, and there is one where something was written. -/
structure MirrorState.Kept (s : MirrorState) : Prop where
  readable : s.file.Readable
  origin : s.origin.isSome = true → s.file ≠ .missing

theorem MirrorState.kept_start : MirrorState.start.Kept := ⟨trivial, nofun⟩

theorem writeStatus_ne_missing (file : MirrorFile) (source : EpochSource) (m : Mapping) :
    writeStatus file source m ≠ .missing := nofun

theorem normalize_of_ingest {file : MirrorFile} {content : Option Document} {r : Reading}
    (h : ingest isoSeconds dispatchId file content = .ingested r) :
    ∃ m, normalizeStatusPayload isoSeconds m = .ok r := by
  unfold ingest at h
  split at h
  · cases h
  · split at h
    · cases h
    · rw [ofValidation_eq_ingested_iff, readStatusMirror_eq_ok_iff] at h
      obtain ⟨d, payload, -, -, hr, -⟩ := h
      exact ⟨payload, hr⟩

theorem MirrorState.Kept.step (h : s.Kept) (a : MirrorAction) :
    (s.step isoSeconds dispatchId statuses a).Kept := by
  cases a with
  | publish => exact ⟨h.readable, h.origin⟩
  | ingest i source =>
    unfold MirrorState.step
    simp only
    split
    · cases haccepts : s.accepts isoSeconds dispatchId statuses i with
      | false =>
        rw [MirrorState.ingest_of_refused _ _ _ haccepts]
        exact h
      | true =>
        obtain ⟨r, hr, hstep⟩ := MirrorState.ingest_of_accepted _ _ _ haccepts source
        obtain ⟨m, hm⟩ := normalize_of_ingest hr
        rw [hstep]
        exact ⟨readable_of_reading h.readable source hm,
          fun _ => writeStatus_ne_missing _ _ _⟩
    · exact h
  | verdict v now source =>
    unfold MirrorState.step
    simp only [writeVerdict_eq_some h.readable, Option.elim_some]
    exact ⟨readable_writeStatus h.readable source
        (normal_verdict dispatchId now (h.readable.prior_nonneg isoSeconds) v),
      fun _ => writeStatus_ne_missing _ _ _⟩

/-- **The condition**: the numbers say what the order of writing says.  A status that was written
before what the mirror has does not read, or is behind it; and one that was written after all that
were ingested reads, and is ahead of the status that the mirror has. -/
def NumberedAsWritten (isoSeconds : String → Option ℤ) (dispatchId : String)
    (statuses : ℕ → Option Document) (s : MirrorState) : MirrorAction → Prop
  | .ingest i _ => i < s.written → ∀ o held, s.origin = some o →
      readStatusMirror isoSeconds s.file none = .ok held →
        (o.After i → ∀ incoming, placed isoSeconds dispatchId (statuses i) = some incoming →
          Behind incoming held) ∧
        (∀ j, o = .document j → (∀ k ∈ s.accepted, k < i) →
          ∃ incoming, placed isoSeconds dispatchId (statuses i) = some incoming ∧
            Ahead incoming held)
  | _ => True

theorem movesOn_iff (h : s.Kept) (a : MirrorAction) :
    s.MovesOn isoSeconds dispatchId statuses a ↔
      NumberedAsWritten isoSeconds dispatchId statuses s a := by
  cases a with
  | publish => exact Iff.rfl
  | verdict v now source => exact Iff.rfl
  | ingest i source =>
    have hheld : ∀ o, s.origin = some o →
        ∃ held, readStatusMirror isoSeconds s.file none = .ok held := by
      intro o ho
      rcases h.readable.missing_or_reading isoSeconds with hmissing | hreading
      · exact absurd hmissing (h.origin (by rw [ho]; rfl))
      · exact hreading
    have hrefused : ∀ held, readStatusMirror isoSeconds s.file none = .ok held →
        (s.accepts isoSeconds dispatchId statuses i = false ↔
          ∀ incoming, placed isoSeconds dispatchId (statuses i) = some incoming →
            Behind incoming held) := by
      intro held hread
      rw [← Bool.not_eq_true, accepts_iff h.readable hread]
      simp only [not_exists, not_and, not_ahead_iff]
    constructor
    · intro hmoves hi o held ho hread
      obtain ⟨hback, hstuck⟩ := hmoves hi o ho
      exact ⟨fun hafter => (hrefused held hread).mp (hback hafter),
        fun j hj hlast => (accepts_iff h.readable hread).mp (hstuck j hj hlast)⟩
    · intro hnumbered hi o ho
      obtain ⟨held, hread⟩ := hheld o ho
      obtain ⟨hback, hstuck⟩ := hnumbered hi o held ho hread
      exact ⟨fun hafter => (hrefused held hread).mpr (hback hafter),
        fun j hj hlast => (accepts_iff h.readable hread).mpr (hstuck j hj hlast)⟩

/-- A running worker's status with an epoch and a number. -/
def epochStatus (dispatchId epoch : String) (seq : ℤ) : Document :=
  (Mapping.empty.set "schema" (textDocument statusMirrorSchema)
    |>.set "dispatch_id" (textDocument dispatchId)
    |>.set "state" (textDocument "running")
    |>.set "epoch" (textDocument epoch)
    |>.set "seq" (intDocument seq)).document

end GoalFlight.Fleet
