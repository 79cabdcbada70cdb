import GoalFlight.Fleet.Ingest

/-!
# Fleet: what is written reads

A status that was read goes into the mirror, and so does a verdict.  Either can be read again: the
texts that `write_status` redacts still say something, and its epoch is one.
-/

namespace GoalFlight.Fleet

open Json
open GoalFlight.Dispatch (normalizeDispatchState)
open Messages (isSpace)
open Output (redactMapping redactValue redactString get?_redactMapping)

variable {isoSeconds : String → Option ℤ} {key s : String} {m : Mapping} {r : Reading}
  {file : MirrorFile}

variable {v : Value} {text : List Char}

/-! ### Texts -/

theorem dropWhile_isSpace_ne_nil_iff :
    text.dropWhile isSpace ≠ [] ↔ ∃ c ∈ text, isSpace c = false := by
  rw [Ne, List.dropWhile_eq_nil_iff]
  push Not
  simp only [Bool.not_eq_true]

theorem exists_mem_lstrip (h : ∃ c ∈ text, isSpace c = false) :
    ∃ c ∈ Watch.lstrip text, isSpace c = false := by
  obtain ⟨c, hc, hspace⟩ := h
  rw [← List.takeWhile_append_dropWhile (p := isSpace) (l := text)] at hc
  rcases List.mem_append.mp hc with htake | hdrop
  · exact absurd (List.mem_takeWhile_imp htake) (by rw [hspace]; exact Bool.false_ne_true)
  · exact ⟨c, hdrop, hspace⟩

theorem exists_mem_rstrip (h : ∃ c ∈ text, isSpace c = false) :
    ∃ c ∈ Watch.rstrip text, isSpace c = false := by
  obtain ⟨c, hc, hspace⟩ := h
  obtain ⟨d, hd, hdspace⟩ := exists_mem_lstrip ⟨c, List.mem_reverse.mpr hc, hspace⟩
  exact ⟨d, List.mem_reverse.mpr hd, hdspace⟩

theorem strip_ne_empty_iff :
    strip s ≠ "" ↔ ∃ c ∈ s.toList, isSpace c = false := by
  constructor
  · intro h
    by_contra hnone
    refine h ?_
    have hblank : Watch.lstrip s.toList = [] := by
      by_contra hne
      exact hnone (dropWhile_isSpace_ne_nil_iff.mp hne)
    unfold strip Watch.strip
    rw [hblank]
    rfl
  · intro h hempty
    obtain ⟨c, hc, -⟩ := exists_mem_rstrip (exists_mem_lstrip h)
    have hnil := congrArg String.toList hempty
    unfold strip Watch.strip at hnil
    rw [String.toList_ofList] at hnil
    rw [hnil] at hc
    cases hc

theorem strip_strip_ne_empty (h : strip s ≠ "") : strip (strip s) ≠ "" := by
  rw [strip_ne_empty_iff] at h ⊢
  have hstrip := exists_mem_rstrip (exists_mem_lstrip h)
  unfold strip
  rw [String.toList_ofList]
  exact hstrip

theorem strip_redactString_ne_empty (h : strip s ≠ "") :
    strip (redactString s) ≠ "" := by
  rw [strip_ne_empty_iff] at h ⊢
  unfold redactString
  rw [String.toList_ofList]
  exact Output.exists_not_isSpace_redactText h

theorem strip_append_ne_empty {t : String} (h : strip s ≠ "") : strip (s ++ t) ≠ "" := by
  rw [strip_ne_empty_iff] at h ⊢
  obtain ⟨c, hc, hspace⟩ := h
  refine ⟨c, ?_, hspace⟩
  rw [String.toList_append]
  exact List.mem_append_left _ hc

/-! ### Fields -/

@[simp] theorem value_set (m : Mapping) (key other : String) (v : Document) :
    value (m.set key v) other = if other = key then v.1 else value m other := by
  unfold value
  split
  · rename_i heq
    rw [heq, Mapping.get?_set]
    rfl
  · rename_i hne
    rw [Mapping.get?_set_of_ne m hne]

@[simp] theorem isSome_get?_set (m : Mapping) (key other : String) (v : Document) :
    ((m.set key v).get? other).isSome = (decide (other = key) || (m.get? other).isSome) := by
  by_cases heq : other = key
  · rw [heq, Mapping.get?_set, decide_eq_true rfl]
    rfl
  · rw [Mapping.get?_set_of_ne m heq, decide_eq_false heq]
    rfl

theorem get?_withStateDefaults (payload m : Mapping) (terminalState : String)
    (h : key ∉ ["liveness_state", "terminal_state", "marker_state"]) :
    (withStateDefaults payload m terminalState).get? key = m.get? key := by
  simp only [List.mem_cons, List.not_mem_nil, or_false, not_or] at h
  obtain ⟨hliveness, hterminal, hmarker⟩ := h
  have hset : (if terminalState = "unknown" then
        m.setDefault "liveness_state" (textDocument (livenessStateFor payload terminalState))
      else
        (m.setDefault "liveness_state"
          (textDocument (livenessStateFor payload terminalState))).setDefault "terminal_state"
            (textDocument terminalState)).get? key = m.get? key := by
    split
    · exact Mapping.get?_setDefault_of_ne _ hliveness _
    · rw [Mapping.get?_setDefault_of_ne _ hterminal, Mapping.get?_setDefault_of_ne _ hliveness]
  unfold withStateDefaults
  simp only
  split
  · split
    · exact hset
    · rw [Mapping.get?_setDefault_of_ne _ hmarker]
      exact hset
  · exact hset

theorem get?_withIdentity (m : Mapping)
    (h : key ∉ ["worker_identity", "expected_worker_identity"]) :
    (withIdentity m).get? key = m.get? key := by
  simp only [List.mem_cons, List.not_mem_nil, or_false, not_or] at h
  obtain ⟨hworker, hexpected⟩ := h
  unfold withIdentity
  simp only
  generalize (if (value m "worker_identity").truthy then m.field "worker_identity"
    else m.field "expected_worker_identity") = identity
  split
  · rw [Mapping.get?_setDefault_of_ne _ hexpected, Mapping.get?_set_of_ne _ hworker]
  · rfl

/-! ### Mirrors -/

/-- The value has a hash. -/
def Hashable : Value → Prop
  | .arr _ | .obj _ => False
  | _ => True

/-- **What a mirror is**: a status in the schema of the mirrors, with a number and an epoch. -/
structure Normal (m : Mapping) : Prop where
  schema : value m "schema" = .str statusMirrorSchema
  seq : ∃ n, 0 ≤ n ∧ value m "seq" = .int n
  dispatchId : (m.get? "dispatch_id").isSome = true
  stateGiven : (m.get? "state").isSome = true
  state : Hashable (value m "state")
  epoch : (coerceEpoch (value m "epoch")).isSome = true

theorem isSome_of_value_ne_null (h : value m key ≠ .null) :
    (m.get? key).isSome = true := by
  unfold value at h
  cases hget : m.get? key with
  | none =>
    rw [hget] at h
    exact absurd rfl h
  | some v => rfl

theorem terminalStateOf_ok_iff {state reason : Value} :
    (∃ terminalState, terminalStateOf state reason = .ok terminalState) ↔ Hashable state := by
  unfold terminalStateOf Hashable
  cases state <;> simp

theorem finishReading_of_normal (h : Normal m) :
    ∃ r, finishReading m = .ok r ∧ value m "seq" = .int r.seq ∧
      coerceEpoch (value m "epoch") = some r.epoch ∧
      value r.payload "state" = value m "state" := by
  obtain ⟨n, hn, hseq⟩ := h.seq
  obtain ⟨epoch, hepoch⟩ := Option.isSome_iff_exists.mp h.epoch
  unfold finishReading
  have hschema : (m.get? "schema").isSome = true :=
    isSome_of_value_ne_null (by rw [h.schema]; simp)
  have hseqSome : (m.get? "seq").isSome = true := isSome_of_value_ne_null (by rw [hseq]; simp)
  rw [hepoch]
  simp only [List.all_cons, List.all_nil, isSome_get?_set, hschema, hseqSome, h.dispatchId,
    h.stateGiven, value_set, Bool.or_true, Bool.and_true, if_true, hseq]
  simp only [show ("seq" : String) ≠ "epoch" by decide, if_false, coerceSeq, not_lt.mpr hn]
  exact ⟨_, rfl, rfl, rfl, by simp⟩

theorem normal_finishReading (hschema : value m "schema" = .str statusMirrorSchema)
    (hstate : Hashable (value m "state")) (h : finishReading m = .ok r) :
    Normal r.payload := by
  unfold finishReading at h
  split at h
  · cases h
  · rename_i epoch hepoch
    simp only at h
    split at h
    · rename_i hall
      split at h
      · cases h
      · rename_i seq hseq
        split at h
        · cases h
        · rename_i hn
          cases h
          simp only [List.all_cons, List.all_nil, isSome_get?_set, Bool.and_true,
            Bool.and_eq_true] at hall
          refine ⟨by simpa using hschema, ⟨seq, not_lt.mp hn, by simp [intDocument]⟩,
            by simpa using hall.2.2.1, by simpa using hall.2.2.2, by simpa using hstate, ?_⟩
          simp only [value_set, show ("epoch" : String) ≠ "seq" by decide, if_false, if_true]
          cases epoch with
          | number n => rfl
          | text s =>
            have hs : strip s ≠ "" := by
              unfold coerceEpoch at hepoch
              split at hepoch
              · cases hepoch
              · cases hepoch
              · split at hepoch <;> cases hepoch
              · split at hepoch
                · rename_i raw hraw
                  cases hepoch
                  exact strip_strip_ne_empty hraw
                · cases hepoch
              · cases hepoch
            simp only [Epoch.document, textDocument, coerceEpoch, if_pos hs, Option.isSome_some]
    · cases h

theorem value_eq_of_get? {m' : Mapping} (h : m.get? key = m'.get? key) :
    value m key = value m' key := congrArg (Option.getD · Value.null) h

theorem get?_setSeq (m : Mapping) (seq : Option ℤ) (h : key ≠ "seq") :
    (seq.elim m fun seq => m.set "seq" (intDocument seq)).get? key = m.get? key := by
  cases seq with
  | none => rfl
  | some seq => exact Mapping.get?_set_of_ne _ h _

theorem value_schema_withMirrorSchema
    (h : value m "schema" = .str statusMirrorSchema ∨ value m "schema" = .str dispatchStatusSchema) :
    value (withMirrorSchema m) "schema" = .str statusMirrorSchema := by
  unfold withMirrorSchema
  rcases h with hmirror | hdispatch
  · rw [hmirror, if_neg (by decide), hmirror]
  · rw [if_pos hdispatch]
    split
    · simp only
      split <;> simp [textDocument]
    · simp [textDocument]

/-- A state that is looked up in the vocabulary has a hash, also as the mirrors have it. -/
theorem hashable_state_withMirrorSchema
    (h : Hashable ((value m "state").orElse (value (withMirrorSchema m) "state"))) :
    Hashable (value (withMirrorSchema m) "state") := by
  cases htruthy : (value m "state").truthy with
  | false => rwa [Value.orElse_of_not_truthy htruthy] at h
  | true =>
    rw [Value.orElse_of_truthy htruthy] at h
    unfold withMirrorSchema
    split
    · split
      · rename_i state hstate
        simp only
        split
        · simp [textDocument, Hashable]
        · simp [Hashable, hstate]
      · simpa using h
    · exact h

/-- **What was read is a mirror.** -/
theorem normal_of_normalizeStatusPayload (h : normalizeStatusPayload isoSeconds m = .ok r) :
    Normal r.payload := by
  unfold normalizeStatusPayload at h
  split at h
  · cases h
  · rename_i hschema
    rw [not_and_or, not_not, not_not] at hschema
    simp only at h
    cases hseq : synthesizedSeq isoSeconds (withMirrorSchema m) with
    | error e => rw [hseq] at h; cases h
    | ok seq =>
      rw [hseq] at h
      simp only [bind, Except.bind] at h
      split at h
      · cases h
      · rename_i terminalState hterminal
        have hhash := terminalStateOf_ok_iff.mp ⟨_, hterminal⟩
        rw [value_eq_of_get? (get?_setSeq _ seq (by decide : ("state" : String) ≠ "seq"))] at hhash
        refine normal_finishReading ?_ ?_ h
        · rw [value_eq_of_get? (get?_withIdentity _ (by decide)),
            value_eq_of_get? (get?_withStateDefaults _ _ _ (by decide)),
            value_eq_of_get? (get?_setSeq _ seq (by decide))]
          exact value_schema_withMirrorSchema hschema
        · rw [value_eq_of_get? (get?_withIdentity _ (by decide)),
            value_eq_of_get? (get?_withStateDefaults _ _ _ (by decide)),
            value_eq_of_get? (get?_setSeq _ seq (by decide))]
          exact hashable_state_withMirrorSchema hhash

theorem value_seq_of_finishReading (h : finishReading m = .ok r) :
    value r.payload "seq" = .int r.seq := by
  unfold finishReading at h
  split at h
  · cases h
  · simp only at h
    split at h
    · split at h
      · cases h
      · split at h
        · cases h
        · cases h
          simp [intDocument]
    · cases h

theorem value_seq_of_normalizeStatusPayload (h : normalizeStatusPayload isoSeconds m = .ok r) :
    value r.payload "seq" = .int r.seq := by
  unfold normalizeStatusPayload at h
  split at h
  · cases h
  · simp only at h
    cases hseq : synthesizedSeq isoSeconds (withMirrorSchema m) with
    | error e => rw [hseq] at h; cases h
    | ok seq =>
      rw [hseq] at h
      simp only [bind, Except.bind] at h
      split at h
      · cases h
      · exact value_seq_of_finishReading h

theorem Normal.of_fields {m' : Mapping} (h : Normal m)
    (hsame : ∀ key ∈ ["schema", "seq", "dispatch_id", "state", "epoch"],
      m'.get? key = m.get? key) : Normal m' where
  schema := by rw [value_eq_of_get? (hsame _ (by decide))]; exact h.schema
  seq := by rw [value_eq_of_get? (hsame _ (by decide))]; exact h.seq
  dispatchId := by rw [hsame _ (by decide)]; exact h.dispatchId
  stateGiven := by rw [hsame _ (by decide)]; exact h.stateGiven
  state := by rw [value_eq_of_get? (hsame _ (by decide))]; exact h.state
  epoch := by rw [value_eq_of_get? (hsame _ (by decide))]; exact h.epoch

/-- **A mirror reads.** -/
theorem Normal.exists_reading (h : Normal m) (isoSeconds : String → Option ℤ) :
    ∃ r, normalizeStatusPayload isoSeconds m = .ok r ∧ value m "seq" = .int r.seq ∧
      coerceEpoch (value m "epoch") = some r.epoch ∧
      value r.payload "state" = value m "state" := by
  have hsame : withMirrorSchema m = m := by
    unfold withMirrorSchema
    rw [h.schema, if_neg (by decide)]
  obtain ⟨n, hn, hseq⟩ := h.seq
  have hsynthesized : synthesizedSeq isoSeconds m = .ok (some n) := by
    unfold synthesizedSeq
    rw [hseq]
    rfl
  have hvalue : value (m.set "seq" (intDocument n)) "seq" = value m "seq" := by
    rw [value_set, if_pos rfl, hseq]
    rfl
  have hstate : value (m.set "seq" (intDocument n)) "state" = value m "state" := by
    rw [value_set, if_neg (by decide)]
  have hhash : Hashable ((value m "state").orElse (value m "state")) := by
    unfold Value.orElse
    rw [ite_self]
    exact h.state
  obtain ⟨terminalState, hterminal⟩ : ∃ terminalState, terminalStateOf
      ((value m "state").orElse (value m "state")) (value (m.set "seq" (intDocument n)) "reason") =
        .ok terminalState := terminalStateOf_ok_iff.mpr hhash
  have hfields : ∀ key ∈ ["schema", "seq", "dispatch_id", "state", "epoch"],
      key ∉ ["worker_identity", "expected_worker_identity"] ∧
        key ∉ ["liveness_state", "terminal_state", "marker_state"] := by decide
  have hnumbered : Normal (m.set "seq" (intDocument n)) := by
    refine ⟨?_, ⟨n, hn, ?_⟩, ?_, ?_, ?_, ?_⟩
    · rw [value_set, if_neg (by decide)]; exact h.schema
    · rw [hvalue, hseq]
    · rw [isSome_get?_set, h.dispatchId, Bool.or_true]
    · rw [isSome_get?_set, h.stateGiven, Bool.or_true]
    · rw [hstate]; exact h.state
    · rw [value_set, if_neg (by decide)]; exact h.epoch
  have hend : ∀ key ∈ ["schema", "seq", "dispatch_id", "state", "epoch"],
      (withIdentity (withStateDefaults m (m.set "seq" (intDocument n)) terminalState)).get? key =
        (m.set "seq" (intDocument n)).get? key := fun key hkey => by
    rw [get?_withIdentity _ (hfields key hkey).1, get?_withStateDefaults _ _ _ (hfields key hkey).2]
  obtain ⟨r, hr, hrseq, hrepoch, hrstate⟩ := finishReading_of_normal (hnumbered.of_fields hend)
  refine ⟨r, ?_, ?_, ?_, ?_⟩
  · unfold normalizeStatusPayload
    rw [h.schema, if_neg (by simp), hsame]
    simp only [bind, Except.bind, hsynthesized, Option.elim_some, hstate, hterminal]
    exact hr
  · rw [← hrseq, value_eq_of_get? (hend _ (by decide)), hvalue]
  · rw [← hrepoch, value_eq_of_get? (hend _ (by decide)), value_set, if_neg (by decide)]
  · rw [hrstate, value_eq_of_get? (hend _ (by decide)), hstate]

/-! ### Redaction -/

theorem value_redactMapping (m : Mapping) (key : String) :
    value (redactMapping m) key = redactValue (value m key) := by
  unfold value
  rw [get?_redactMapping]
  cases m.get? key with
  | none => rfl
  | some v => rfl

theorem isSome_coerceEpoch_redactValue (h : (coerceEpoch v).isSome = true) :
    (coerceEpoch (redactValue v)).isSome = true := by
  cases v with
  | str s =>
    unfold coerceEpoch at h
    simp only at h
    split at h
    · rename_i hs
      unfold redactValue coerceEpoch
      simp only [if_pos (strip_redactString_ne_empty hs), Option.isSome_some]
    · cases h
  | arr items => cases h
  | obj fields => cases h
  | _ => exact h

/-- **Redaction keeps a mirror one.** -/
theorem Normal.redact (h : Normal m) : Normal (redactMapping m) where
  schema := by
    rw [value_redactMapping, h.schema]
    decide +kernel
  seq := by
    obtain ⟨n, hn, hseq⟩ := h.seq
    exact ⟨n, hn, by rw [value_redactMapping, hseq]; rfl⟩
  dispatchId := by rw [get?_redactMapping, Option.isSome_map]; exact h.dispatchId
  stateGiven := by rw [get?_redactMapping, Option.isSome_map]; exact h.stateGiven
  state := by
    have hstate := h.state
    rw [value_redactMapping]
    cases hv : value m "state" <;> rw [hv] at hstate <;> exact hstate
  epoch := by
    rw [value_redactMapping]
    exact isSome_coerceEpoch_redactValue h.epoch

/-! ### Files -/

theorem not_isSpace_of_isNumberChar {c : Char} (h : isNumberChar c = true) : isSpace c = false := by
  unfold isNumberChar at h
  simp only [Bool.or_eq_true, decide_eq_true_eq] at h
  rcases h with ((((hdigit | rfl) | rfl) | rfl) | rfl) | rfl <;> [skip; decide; decide; decide;
    decide; decide]
  unfold Char.isDigit at hdigit
  simp only [ge_iff_le, Bool.and_eq_true, decide_eq_true_eq, UInt32.le_iff_toNat_le] at hdigit
  unfold isSpace
  have hn : c.toNat = c.val.toNat := rfl
  simp only [Bool.or_eq_false_iff, Bool.and_eq_false_iff, decide_eq_false_iff_not]
  have hlow : 48 ≤ c.toNat := hdigit.1
  have hhigh : c.toNat ≤ 57 := hdigit.2
  omega

theorem strip_intText_ne_empty (n : ℤ) : strip (String.ofList (intText n)) ≠ "" := by
  rw [strip_ne_empty_iff, String.toList_ofList]
  have htext := numberText_intText n
  obtain ⟨c, rest, hhead, -⟩ := htext.head
  have hc : c ∈ intText n := hhead ▸ List.mem_cons_self
  exact ⟨c, hc, not_isSpace_of_isNumberChar (htext.chars c hc)⟩

theorem strip_payloadEpoch_ne_empty {epoch : String} (h : payloadEpoch v = some epoch) :
    strip epoch ≠ "" := by
  unfold payloadEpoch at h
  split at h
  · cases h
    exact strip_intText_ne_empty _
  · split at h
    · cases h
      exact strip_intText_ne_empty _
    · cases h
  · split at h
    · rename_i hs
      cases h
      exact strip_strip_ne_empty hs
    · cases h
  · cases h

/-- **What a mirror file is**: missing, or a mirror with an epoch of its own. -/
def MirrorFile.Readable : MirrorFile → Prop
  | .missing => True
  | .garbled => False
  | .json d => ∃ m, mapping? d = some m ∧ Normal m ∧ (payloadEpoch (value m "epoch")).isSome = true

/-- **What is read**: a mapping that normalizes, and follows the last one. -/
theorem readStatusMirror_eq_ok_iff {last : Option Reading} :
    readStatusMirror isoSeconds file last = .ok r ↔
      ∃ d payload, file = .json d ∧ mapping? d = some payload ∧
        normalizeStatusPayload isoSeconds payload = .ok r ∧
        last.all (follows (payload.get? "epoch").isSome r) = true := by
  cases file with
  | missing => simp [readStatusMirror]
  | garbled => simp [readStatusMirror]
  | json d =>
    simp only [readStatusMirror, MirrorFile.json.injEq, exists_and_left, exists_eq_left']
    cases mapping? d with
    | none => simp
    | some payload =>
      simp only [Option.some.injEq, exists_eq_left']
      cases normalizeStatusPayload isoSeconds payload with
      | error e => simp [bind, Except.bind]
      | ok reading =>
        simp only [bind, Except.bind, Except.ok.injEq]
        split
        · rename_i hfollows
          constructor
          · rintro ⟨⟩
            exact ⟨rfl, hfollows⟩
          · rintro ⟨rfl, -⟩
            rfl
        · rename_i hfollows
          refine iff_of_false (nofun) ?_
          rintro ⟨rfl, h⟩
          exact hfollows h

theorem readStatusMirror_json_none {d : Document} (hm : mapping? d = some m) :
    readStatusMirror isoSeconds (.json d) none = normalizeStatusPayload isoSeconds m := by
  unfold readStatusMirror
  simp only [hm, Option.all_none, if_true]
  exact bind_pure _

theorem MirrorFile.Readable.missing_or_reading (h : file.Readable)
    (isoSeconds : String → Option ℤ) :
    file = .missing ∨ ∃ r, readStatusMirror isoSeconds file none = .ok r := by
  cases file with
  | missing => exact .inl rfl
  | garbled => exact h.elim
  | json d =>
    obtain ⟨m, hm, hnormal, -⟩ := h
    obtain ⟨r, hr, -⟩ := hnormal.exists_reading isoSeconds
    exact .inr ⟨r, (readStatusMirror_json_none hm).trans hr⟩

theorem MirrorFile.Readable.strip_statusEpochFor_ne_empty (h : file.Readable)
    (source : EpochSource) : strip (statusEpochFor file source) ≠ "" := by
  unfold statusEpochFor
  cases file with
  | missing => exact strip_append_ne_empty (by decide +kernel)
  | garbled => exact h.elim
  | json d =>
    obtain ⟨m, hm, -, hepoch⟩ := h
    obtain ⟨epoch, hepoch⟩ := Option.isSome_iff_exists.mp hepoch
    have hexisting : (MirrorFile.json d).existingEpoch = some epoch := by
      simp only [MirrorFile.existingEpoch, hm, Option.bind_some, hepoch]
    rw [hexisting]
    exact strip_payloadEpoch_ne_empty hepoch

theorem isSome_payloadEpoch_redactValue (h : (payloadEpoch v).isSome = true) :
    (payloadEpoch (redactValue v)).isSome = true := by
  cases v with
  | str s =>
    unfold payloadEpoch at h
    simp only at h
    split at h
    · rename_i hs
      unfold redactValue payloadEpoch
      simp only [if_pos (strip_redactString_ne_empty hs), Option.isSome_some]
    · cases h
  | arr items => cases h
  | obj fields => cases h
  | _ => exact h

/-- **What is written reads.** -/
theorem readable_writeStatus (hfile : file.Readable) (source : EpochSource) (h : Normal m) :
    (writeStatus file source m).Readable := by
  refine ⟨redactMapping (ensureStatusEpoch file source m), rfl, ?_, ?_⟩
  · refine Normal.redact ?_
    unfold ensureStatusEpoch
    split
    · exact h
    · refine ⟨?_, ?_, ?_, ?_, ?_, ?_⟩
      · rw [value_set, if_neg (by decide)]; exact h.schema
      · obtain ⟨n, hn, hseq⟩ := h.seq
        exact ⟨n, hn, by rw [value_set, if_neg (by decide), hseq]⟩
      · rw [isSome_get?_set, h.dispatchId, Bool.or_true]
      · rw [isSome_get?_set, h.stateGiven, Bool.or_true]
      · rw [value_set, if_neg (by decide)]; exact h.state
      · rw [value_set, if_pos rfl]
        simp only [textDocument, coerceEpoch,
          if_pos (hfile.strip_statusEpochFor_ne_empty source), Option.isSome_some]
  · rw [value_redactMapping]
    refine isSome_payloadEpoch_redactValue ?_
    unfold ensureStatusEpoch
    split
    · assumption
    · rw [value_set, if_pos rfl]
      simp only [textDocument, payloadEpoch,
        if_pos (hfile.strip_statusEpochFor_ne_empty source), Option.isSome_some]

/-- **What is read of what is written**: its number, and its state as redaction leaves it. -/
theorem readStatusMirror_writeStatus (hfile : file.Readable) (isoSeconds : String → Option ℤ)
    (source : EpochSource) (h : Normal m) :
    ∃ r, readStatusMirror isoSeconds (writeStatus file source m) none = .ok r ∧
      value m "seq" = .int r.seq ∧ value r.payload "state" = redactValue (value m "state") := by
  obtain ⟨m', hm', hnormal, -⟩ := readable_writeStatus hfile source h
  obtain ⟨r, hr, hseq, -, hstate⟩ := hnormal.exists_reading isoSeconds
  obtain rfl := Option.some.inj hm'
  have hkept : ∀ key : String, key ≠ "epoch" →
      value (ensureStatusEpoch file source m) key = value m key := by
    intro key hkey
    unfold ensureStatusEpoch
    split
    · rfl
    · rw [value_set, if_neg hkey]
  obtain ⟨n, -, hn⟩ := h.seq
  refine ⟨r, (readStatusMirror_json_none hm').trans hr, ?_, ?_⟩
  · rw [value_redactMapping, hkept _ (by decide), hn] at hseq
    rw [hn]
    exact hseq
  · rw [hstate, value_redactMapping, hkept _ (by decide)]

/-! ### What is written over a mirror -/

theorem MirrorFile.Readable.seq_nonneg (h : file.Readable)
    (hr : readStatusMirror isoSeconds file none = .ok r) : 0 ≤ r.seq := by
  cases file with
  | missing => cases hr
  | garbled => cases hr
  | json d =>
    obtain ⟨m, hm, hnormal, -⟩ := h
    obtain ⟨r', hr', hseq, -⟩ := hnormal.exists_reading isoSeconds
    rw [readStatusMirror_json_none hm, hr'] at hr
    cases hr
    obtain ⟨n, hn, hseq'⟩ := hnormal.seq
    rw [hseq] at hseq'
    cases hseq'
    exact hn

theorem get?_setGiven_of_ne (m : Mapping) {other : String} (hne : other ≠ key)
    (text : Option String) : (setGiven m key text).get? other = m.get? other := by
  unfold setGiven
  cases Capacity.given text with
  | none => rfl
  | some text => exact Mapping.get?_set_of_ne _ hne _

theorem get?_copyKeys (m : Mapping) (prior : Option Reading)
    (h : key ∉ ["agent", "tail_path", "worker_pid"]) :
    (copyKeys m prior).get? key = m.get? key := by
  cases prior with
  | none => rfl
  | some prior =>
    simp only [List.mem_cons, List.not_mem_nil, or_false, not_or] at h
    unfold copyKeys
    simp only [Option.elim_some, List.foldl_cons, List.foldl_nil]
    split <;> split <;> split <;>
      simp only [Mapping.get?_set_of_ne _ h.1, Mapping.get?_set_of_ne _ h.2.1,
        Mapping.get?_set_of_ne _ h.2.2]

theorem get?_verdict (dispatchId now : String) (prior : Option Reading) (v : Verdict)
    (h : key ∉ ["agent", "tail_path", "worker_pid", "worktree_path", "porcelain",
      "porcelain_error"]) :
    (v.payload dispatchId now prior).get? key = (v.head dispatchId now prior).get? key := by
  simp only [List.mem_cons, List.not_mem_nil, or_false, not_or] at h
  obtain ⟨hagent, htail, hpid, hpath, hporcelain, herror⟩ := h
  have hcopied : key ∉ ["agent", "tail_path", "worker_pid"] := by simp [hagent, htail, hpid]
  unfold Verdict.payload
  cases v with
  | workerDead => exact get?_copyKeys _ _ hcopied
  | salvageNeeded reason worktreePath porcelain porcelainError =>
    simp only
    rw [get?_copyKeys _ _ hcopied, get?_setGiven_of_ne _ herror, get?_setGiven_of_ne _ hporcelain,
      get?_setGiven_of_ne _ hpath]
  | launchFailed reason => rfl

theorem value_seq_verdict (dispatchId now : String) (prior : Option Reading) (v : Verdict) :
    value (v.payload dispatchId now prior) "seq" = .int (nextSeq prior) := by
  rw [value_eq_of_get? (get?_verdict dispatchId now prior v (by decide))]
  simp [Verdict.head, intDocument]

theorem value_state_verdict (dispatchId now : String) (prior : Option Reading) (v : Verdict) :
    value (v.payload dispatchId now prior) "state" = .str v.state := by
  rw [value_eq_of_get? (get?_verdict dispatchId now prior v (by decide))]
  simp [Verdict.head, textDocument]

theorem value_epoch_verdict (dispatchId now : String) (prior : Option Reading) (v : Verdict) :
    value (v.payload dispatchId now prior) "epoch" = .null := by
  rw [value_eq_of_get? (get?_verdict dispatchId now prior v (by decide))]
  simp [Verdict.head]
  rfl

theorem normal_verdict (dispatchId now : String) {prior : Option Reading}
    (hprior : ∀ r ∈ prior, 0 ≤ r.seq) (v : Verdict) : Normal (v.payload dispatchId now prior) := by
  refine ⟨?_, ⟨nextSeq prior, ?_, value_seq_verdict ..⟩, ?_, ?_, ?_, ?_⟩
  · rw [value_eq_of_get? (get?_verdict dispatchId now prior v (by decide))]
    simp [Verdict.head, textDocument]
  · cases prior with
    | none => decide
    | some r => exact Int.add_nonneg (hprior r rfl) (by decide)
  · rw [get?_verdict dispatchId now prior v (by decide)]
    simp [Verdict.head]
  · exact isSome_of_value_ne_null (by rw [value_state_verdict]; simp)
  · rw [value_state_verdict]
    trivial
  · rw [value_epoch_verdict]
    rfl

/-- **A status that was read is written as a readable mirror.** -/
theorem readable_of_reading (hfile : file.Readable) (source : EpochSource)
    (h : normalizeStatusPayload isoSeconds m = .ok r) :
    (writeStatus file source r.payload).Readable :=
  readable_writeStatus hfile source (normal_of_normalizeStatusPayload h)

theorem MirrorFile.Readable.prior_nonneg (h : file.Readable) (isoSeconds : String → Option ℤ) :
    ∀ r ∈ (readStatusMirror isoSeconds file none).toOption, 0 ≤ r.seq := by
  intro r hr
  cases hread : readStatusMirror isoSeconds file none with
  | error e =>
    rw [hread] at hr
    cases hr
  | ok r' =>
    rw [hread] at hr
    cases hr
    exact h.seq_nonneg hread

/-- **A verdict is always written**, behind what the mirror has. -/
theorem writeVerdict_eq_some (hfile : file.Readable) (isoSeconds : String → Option ℤ)
    (dispatchId now : String) (source : EpochSource) (v : Verdict) :
    writeVerdict isoSeconds dispatchId now source file v =
      some (writeStatus file source
        (v.payload dispatchId now (readStatusMirror isoSeconds file none).toOption)) := by
  rcases hfile.missing_or_reading isoSeconds with rfl | ⟨r, hr⟩
  · rfl
  · unfold writeVerdict
    rw [hr]

/-- **What is read of a verdict.** -/
theorem readStatusMirror_verdict (hfile : file.Readable) (isoSeconds : String → Option ℤ)
    (dispatchId now : String) (source : EpochSource) (v : Verdict) :
    ∃ r, readStatusMirror isoSeconds (writeStatus file source
        (v.payload dispatchId now (readStatusMirror isoSeconds file none).toOption)) none = .ok r ∧
      r.seq = nextSeq (readStatusMirror isoSeconds file none).toOption ∧
      value r.payload "state" = .str v.state := by
  obtain ⟨r, hr, hseq, hstate⟩ := readStatusMirror_writeStatus hfile isoSeconds source
    (normal_verdict dispatchId now (hfile.prior_nonneg isoSeconds) v)
  rw [value_seq_verdict] at hseq
  rw [value_state_verdict] at hstate
  refine ⟨r, hr, (Value.int.inj hseq).symm, ?_⟩
  have hkept : ∀ state ∈ ["worker_dead", "salvage_needed", "failed"],
      redactValue (.str state) = .str state := by decide +kernel
  rw [hstate]
  exact hkept _ (by cases v <;> simp [Verdict.state])

end GoalFlight.Fleet
