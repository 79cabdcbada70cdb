import GoalFlight.Output.Redact

/-!
# Output: redaction in parts

A line that is written in parts is redacted as in one piece, if and only if no part ends inside a
character or inside a credential (`streaming_redaction_iff`).  What is held back at the end of a
part keeps a credential whole only as long as fewer than 24 of its characters have come: of a
longer one the start is replaced and the rest goes out as it is.
-/

namespace GoalFlight.Output

open Utf8 (Bytes decodeReplace inCharacter charOf replacement replacements)

/-! ### Cuts of a line -/

/-- The bytes of the open line that are still to come. -/
def restOfLine : List Emission → Bytes
  | [] => []
  | .line raw :: _ => raw
  | .part raw :: more => raw ++ restOfLine more

/-- **A clean cut** of a line: in no character, and in no credential. -/
def CleanCut (before after : Bytes) : Prop :=
  inCharacter before after = false ∧
    secretShape.carry (decodeReplace before) (decodeReplace after) = 0

instance (before after : Bytes) : Decidable (CleanCut before after) :=
  inferInstanceAs (Decidable (_ ∧ _))

/-- **Each part of a line ends in a clean cut.** -/
def Clean : List Emission → Prop
  | [] => True
  | .line _ :: more => Clean more
  | .part raw :: more => CleanCut raw (restOfLine more) ∧ Clean more

instance decidableClean : ∀ emissions : List Emission, Decidable (Clean emissions)
  | [] => inferInstanceAs (Decidable True)
  | .line _ :: more => decidableClean more
  | .part raw :: more =>
    haveI := decidableClean more
    inferInstanceAs (Decidable (CleanCut raw (restOfLine more) ∧ Clean more))

/-- No part ends inside a character. -/
def CharacterClean : List Emission → Prop
  | [] => True
  | .line _ :: more => CharacterClean more
  | .part raw :: more => inCharacter raw (restOfLine more) = false ∧ CharacterClean more

/-! ### What is taken out -/

/-- Which bytes of a line, or of a part of one, are in a credential of it, so that they are not
written. -/
def secretBytes (line : Bytes) : List Bool :=
  (List.range line.length).map fun i =>
    ((secretShape.mask (decodeReplace line))[charOf line i]?).getD false

/-- Which bytes of a stream are in a credential of their line, from an open line on. -/
def secretBytesFrom (open_ : Bytes) : Bytes → List Bool
  | [] => secretBytes open_
  | b :: rest =>
    if b = 10 then secretBytes open_ ++ [false] ++ secretBytesFrom [] rest
    else secretBytesFrom (open_ ++ [b]) rest

/-- Which of its bytes are not written. -/
def Emission.takenOut : Emission → List Bool
  | .line raw => secretBytes raw ++ [false]
  | .part raw => secretBytes raw

/-- **No byte of a credential is written.** -/
def NoLeak (flushBytes : ℤ) (events : List Event) : Prop :=
  ∀ i : ℕ, (secretBytesFrom [] (streamOf events))[i]? = some true →
    ((emissions flushBytes events).flatMap Emission.takenOut)[i]? = some true

theorem secretBytes_append {before after : Bytes} (h : CleanCut before after) :
    secretBytes (before ++ after) = secretBytes before ++ secretBytes after := by
  unfold secretBytes
  rw [List.length_append, List.range_add, List.map_append, List.map_map,
    Utf8.decodeReplace_append h.1, Substitution.Pattern.mask_append h.2]
  congr 1
  · refine List.map_congr_left fun i hi => ?_
    have hlt := List.mem_range.mp hi
    rw [Utf8.charOf_append_left after hlt, List.getElem?_append_left]
    rw [Substitution.Pattern.length_mask]
    exact Utf8.charOf_lt hlt
  · refine List.map_congr_left fun i hi => ?_
    have hlt := List.mem_range.mp hi
    simp only [Function.comp]
    rw [Utf8.charOf_append_right h.1 hlt, List.getElem?_append_right]
    · rw [Substitution.Pattern.length_mask, Nat.add_sub_cancel_left]
    · rw [Substitution.Pattern.length_mask]
      exact Nat.le_add_right _ _

/-! ### What goes out is the stream -/

/-- The bytes of the source that it is of. -/
def Emission.source : Emission → Bytes
  | .line raw => raw ++ [10]
  | .part raw => raw

/-- It is within a line. -/
def Emission.Within : Emission → Prop
  | .line raw | .part raw => ∀ b ∈ raw, b ≠ 10

theorem emitLines_spec (buf bytes : Bytes) (hbuf : ∀ b ∈ buf, b ≠ 10) :
    (emitLines buf bytes).1.flatMap Emission.source ++ (emitLines buf bytes).2 = buf ++ bytes ∧
      (∀ e ∈ (emitLines buf bytes).1, e.Within) ∧ ∀ b ∈ (emitLines buf bytes).2, b ≠ 10 := by
  induction bytes generalizing buf with
  | nil => exact ⟨(List.append_nil buf).symm, nofun, hbuf⟩
  | cons b bytes ih =>
    unfold emitLines
    by_cases hb : b = 10
    · obtain ⟨hsource, hwithin, hrest⟩ := ih [] nofun
      rw [if_pos hb]
      refine ⟨?_, ?_, hrest⟩
      · simp only [List.flatMap_cons, Emission.source, List.append_assoc]
        rw [hsource, hb]
        rfl
      · intro e he
        rcases List.mem_cons.mp he with rfl | he
        · exact hbuf
        · exact hwithin e he
    · rw [if_neg hb]
      have hbuf' : ∀ c ∈ buf ++ [b], c ≠ 10 := by
        intro c hc
        rcases List.mem_append.mp hc with hc | hc
        · exact hbuf c hc
        · rw [List.mem_singleton.mp hc]
          exact hb
      obtain ⟨hsource, hwithin, hrest⟩ := ih (buf ++ [b]) hbuf'
      refine ⟨?_, hwithin, hrest⟩
      rw [hsource, List.append_assoc]
      rfl

theorem flushPartial_spec (buf : Bytes) (hbuf : ∀ b ∈ buf, b ≠ 10) :
    (flushPartial buf).1.flatMap Emission.source ++ (flushPartial buf).2 = buf ∧
      (∀ e ∈ (flushPartial buf).1, e.Within) ∧ ∀ b ∈ (flushPartial buf).2, b ≠ 10 := by
  unfold flushPartial
  have hparts : (splitPartialFlush buf).1 ++ (splitPartialFlush buf).2 = buf := by
    unfold splitPartialFlush
    simp only
    split
    · rfl
    · exact List.take_append_drop _ _
  have hin : ∀ b, b ∈ (splitPartialFlush buf).1 ∨ b ∈ (splitPartialFlush buf).2 → b ≠ 10 := by
    intro b hb
    refine hbuf b ?_
    rw [← hparts]
    exact List.mem_append.mpr hb
  simp only
  split
  · rename_i hnil
    rw [hnil] at hparts
    exact ⟨hparts, nofun, fun b hb => hin b (.inr hb)⟩
  · refine ⟨?_, ?_, fun b hb => hin b (.inr hb)⟩
    · simpa [Emission.source] using hparts
    · intro e he
      rw [List.mem_singleton.mp he]
      exact fun b hb => hin b (.inl hb)

theorem handle_spec (flushBytes : ℤ) (buf : Bytes) (hbuf : ∀ b ∈ buf, b ≠ 10) (event : Event) :
    (handle flushBytes buf event).1.flatMap Emission.source ++ (handle flushBytes buf event).2 =
        buf ++ streamOf [event] ∧
      (∀ e ∈ (handle flushBytes buf event).1, e.Within) ∧
      ∀ b ∈ (handle flushBytes buf event).2, b ≠ 10 := by
  cases event with
  | timeout =>
    obtain ⟨hsource, hwithin, hrest⟩ := flushPartial_spec buf hbuf
    refine ⟨?_, hwithin, hrest⟩
    rw [show streamOf [.timeout] = [] from rfl, List.append_nil]
    exact hsource
  | chunk bytes =>
    obtain ⟨hsource, hwithin, hrest⟩ := emitLines_spec buf bytes hbuf
    rw [show streamOf [.chunk bytes] = bytes from List.append_nil bytes]
    unfold handle
    simp only
    split
    · obtain ⟨hsource', hwithin', hrest'⟩ := flushPartial_spec _ hrest
      refine ⟨?_, ?_, hrest'⟩
      · rw [List.flatMap_append, List.append_assoc, hsource']
        exact hsource
      · intro e he
        rcases List.mem_append.mp he with he | he
        · exact hwithin e he
        · exact hwithin' e he
    · exact ⟨hsource, hwithin, hrest⟩

/-- **What goes out** is the stream, cut into lines and parts of lines. -/
theorem emissionsFrom_spec (flushBytes : ℤ) (events : List Event) (buf : Bytes)
    (hbuf : ∀ b ∈ buf, b ≠ 10) :
    (emissionsFrom flushBytes buf events).flatMap Emission.source = buf ++ streamOf events ∧
      ∀ e ∈ emissionsFrom flushBytes buf events, e.Within := by
  induction events generalizing buf with
  | nil =>
    unfold emissionsFrom
    split
    · rename_i hnil
      rw [hnil]
      exact ⟨rfl, nofun⟩
    · refine ⟨by simp [Emission.source, streamOf], fun e he => ?_⟩
      rw [List.mem_singleton.mp he]
      exact hbuf
  | cons event events ih =>
    obtain ⟨hsource, hwithin, hrest⟩ := handle_spec flushBytes buf hbuf event
    obtain ⟨hsource', hwithin'⟩ := ih _ hrest
    unfold emissionsFrom
    refine ⟨?_, ?_⟩
    · have hstream : streamOf (event :: events) = streamOf [event] ++ streamOf events := by
        unfold streamOf
        rw [← List.flatMap_append]
        rfl
      simp only
      rw [List.flatMap_append, hsource', ← List.append_assoc, hsource, hstream, List.append_assoc]
    · intro e he
      rcases List.mem_append.mp he with he | he
      · exact hwithin e he
      · exact hwithin' e he

/-! ### The texts -/

/-- The text that is written. -/
def outText : List Emission → List Char
  | [] => []
  | .line raw :: more => redactText (decodeReplace raw) ++ '\n' :: outText more
  | .part raw :: more => redactText (decodeReplace raw) ++ outText more

/-- The text with each line redacted in one piece, from an open line on. -/
def wholeFrom (open_ : Bytes) : List Emission → List Char
  | [] => redactText (decodeReplace open_)
  | .line raw :: more => redactText (decodeReplace (open_ ++ raw)) ++ '\n' :: wholeFrom [] more
  | .part raw :: more => wholeFrom (open_ ++ raw) more

/-- The text behind the open line. -/
def behindLine : List Emission → List Char
  | [] => []
  | .line _ :: more => '\n' :: wholeFrom [] more
  | .part _ :: more => behindLine more

theorem wholeFrom_eq (open_ : Bytes) (emissions : List Emission) :
    wholeFrom open_ emissions =
      redactText (decodeReplace (open_ ++ restOfLine emissions)) ++ behindLine emissions := by
  induction emissions generalizing open_ with
  | nil => simp [wholeFrom, restOfLine, behindLine]
  | cons e more ih =>
    cases e with
    | line raw => rfl
    | part raw =>
      show wholeFrom (open_ ++ raw) more = _
      rw [ih, List.append_assoc]
      rfl

theorem encode_newline (text : List Char) : Utf8.encode ('\n' :: text) = 10 :: Utf8.encode text := by
  rw [Utf8.encode_cons, Utf8.utf8EncodeChar_ascii (by decide)]
  rfl

theorem flatMap_output (emissions : List Emission) :
    emissions.flatMap Emission.output = Utf8.encode (outText emissions) := by
  induction emissions with
  | nil => rfl
  | cons e more ih =>
    rw [List.flatMap_cons, ih]
    cases e with
    | line raw =>
      show redactLineBytes raw ++ [10] ++ _ = Utf8.encode (_ ++ '\n' :: outText more)
      rw [Utf8.encode_append, encode_newline, List.append_assoc]
      rfl
    | part raw =>
      show redactLineBytes raw ++ _ = Utf8.encode (_ ++ outText more)
      rw [Utf8.encode_append]
      rfl

section Lines

variable {raw : Bytes} (hraw : ∀ b ∈ raw, b ≠ 10)

include hraw

theorem redactLinesFrom_append (open_ rest : Bytes) :
    redactLinesFrom open_ (raw ++ rest) = redactLinesFrom (open_ ++ raw) rest := by
  induction raw generalizing open_ with
  | nil => rw [List.append_nil]; rfl
  | cons b raw ih =>
    have hb : b ≠ 10 := hraw b List.mem_cons_self
    rw [List.cons_append, redactLinesFrom, if_neg hb,
      ih (fun c hc => hraw c (List.mem_cons_of_mem _ hc)), List.append_assoc]
    rfl

theorem secretBytesFrom_append (open_ rest : Bytes) :
    secretBytesFrom open_ (raw ++ rest) = secretBytesFrom (open_ ++ raw) rest := by
  induction raw generalizing open_ with
  | nil => rw [List.append_nil]; rfl
  | cons b raw ih =>
    have hb : b ≠ 10 := hraw b List.mem_cons_self
    rw [List.cons_append, secretBytesFrom, if_neg hb,
      ih (fun c hc => hraw c (List.mem_cons_of_mem _ hc)), List.append_assoc]
    rfl

end Lines

theorem redactLinesFrom_source {emissions : List Emission} (h : ∀ e ∈ emissions, e.Within)
    (open_ : Bytes) :
    redactLinesFrom open_ (emissions.flatMap Emission.source) =
      Utf8.encode (wholeFrom open_ emissions) := by
  induction emissions generalizing open_ with
  | nil =>
    show (if open_ = [] then [] else redactLineBytes open_) = redactLineBytes open_
    split
    · rename_i hnil
      rw [hnil]
      rfl
    · rfl
  | cons e more ih =>
    have hmore := ih fun e he => h e (List.mem_cons_of_mem _ he)
    have hraw := h e List.mem_cons_self
    rw [List.flatMap_cons]
    cases e with
    | line raw =>
      show redactLinesFrom open_ (raw ++ [10] ++ _) =
        Utf8.encode (redactText (decodeReplace (open_ ++ raw)) ++ '\n' :: wholeFrom [] more)
      rw [List.append_assoc, redactLinesFrom_append hraw, Utf8.encode_append, encode_newline,
        ← hmore []]
      show redactLineBytes _ ++ [10] ++ _ = _
      rw [List.append_assoc]
      rfl
    | part raw =>
      show redactLinesFrom open_ (raw ++ _) = Utf8.encode (wholeFrom (open_ ++ raw) more)
      rw [redactLinesFrom_append hraw, hmore]

/-! ### Cuts in characters -/

theorem isKeyChar_of_start {x a i hyphen : Char} (h : isKeyStart [x, a, i, hyphen] = true) :
    isKeyChar x = true ∧ isKeyChar a = true ∧ isKeyChar i = true ∧ hyphen = '-' := by
  simp only [isKeyStart, Watch.sameLetter, Bool.and_eq_true, Bool.or_eq_true,
    decide_eq_true_eq] at h
  obtain ⟨⟨⟨hx, ha⟩, hi⟩, rfl⟩ := h
  refine ⟨?_, ?_, ?_, rfl⟩
  · rcases hx with (((rfl | rfl) | ⟨hs, -⟩) | ⟨hi, -⟩) | ⟨hk, -⟩
    · decide
    · decide
    · exact absurd hs (by decide)
    · exact absurd hi (by decide)
    · exact absurd hk (by decide)
  · rcases ha with (((rfl | rfl) | ⟨hs, -⟩) | ⟨hi, -⟩) | ⟨hk, -⟩
    · decide
    · decide
    · exact absurd hs (by decide)
    · exact absurd hi (by decide)
    · exact absurd hk (by decide)
  · rcases hi with (((rfl | rfl) | ⟨hs, -⟩) | ⟨-, hwide⟩) | ⟨hk, -⟩
    · decide
    · decide
    · exact absurd hs (by decide)
    · unfold isKeyChar
      rcases hwide with hwide | hwide <;> simp [hwide]
    · exact absurd hk (by decide)

theorem notMem_key {c : Char} (hkey : isKeyChar c = false) (hhyphen : c ≠ '-') (text : List Char) :
    c ∉ text.take (keyLength text) := by
  rcases Nat.eq_zero_or_pos (keyLength text) with hzero | hpos
  · rw [hzero]
    exact List.not_mem_nil
  · obtain ⟨start, run, rest, rfl, hfour, hstart, hrun, -, -, hlength⟩ := keyLength_pos hpos
    rw [hlength, List.take_left' (by rw [List.length_append]; omega)]
    intro hmem
    rcases List.mem_append.mp hmem with hmem | hmem
    · match start, hfour with
      | [x, a, i, hyphen], _ =>
        obtain ⟨hx, ha, hi, rfl⟩ := isKeyChar_of_start hstart
        simp only [List.mem_cons, List.not_mem_nil, or_false] at hmem
        rcases hmem with rfl | rfl | rfl | rfl
        · exact Bool.false_ne_true (hkey.symm.trans hx)
        · exact Bool.false_ne_true (hkey.symm.trans ha)
        · exact Bool.false_ne_true (hkey.symm.trans hi)
        · exact hhyphen rfl
    · exact Bool.false_ne_true (hkey.symm.trans (hrun c hmem))

theorem replacements_redactText (text : List Char) :
    replacements (redactText text) = replacements text :=
  Substitution.Pattern.count_sub (by decide) (notMem_key (by decide) (by decide)) text

/-- **A cut in a character** makes a replacement that the line does not have. -/
theorem replacements_outText (emissions : List Emission) :
    replacements (wholeFrom [] emissions) ≤ replacements (outText emissions) ∧
      (¬ CharacterClean emissions →
        replacements (wholeFrom [] emissions) < replacements (outText emissions)) := by
  induction emissions with
  | nil => exact ⟨Nat.le_refl _, fun h => absurd trivial h⟩
  | cons e more ih =>
    obtain ⟨hle, hlt⟩ := ih
    cases e with
    | line raw =>
      have hsum : ∀ text : List Char, replacements (redactText (decodeReplace raw) ++ '\n' :: text) =
          replacements (decodeReplace raw) + replacements text := by
        intro text
        rw [Utf8.replacements_append, replacements_redactText]
        congr 1
      show replacements (redactText (decodeReplace raw) ++ '\n' :: wholeFrom [] more) ≤
          replacements (redactText (decodeReplace raw) ++ '\n' :: outText more) ∧ _
      rw [hsum, hsum]
      refine ⟨Nat.add_le_add_left hle _, fun h => ?_⟩
      show replacements (redactText (decodeReplace raw) ++ '\n' :: wholeFrom [] more) <
          replacements (redactText (decodeReplace raw) ++ '\n' :: outText more)
      rw [hsum, hsum]
      exact Nat.add_lt_add_left (hlt h) _
    | part raw =>
      obtain ⟨hcut, hcut'⟩ := Utf8.replacements_decode_append raw (restOfLine more)
      have hwhole : replacements (wholeFrom [] (.part raw :: more)) =
          replacements (decodeReplace (raw ++ restOfLine more)) +
            replacements (behindLine more) := by
        show replacements (wholeFrom ([] ++ raw) more) = _
        rw [wholeFrom_eq, Utf8.replacements_append, replacements_redactText, List.nil_append]
      have hmore : replacements (wholeFrom [] more) =
          replacements (decodeReplace (restOfLine more)) + replacements (behindLine more) := by
        rw [wholeFrom_eq, Utf8.replacements_append, replacements_redactText, List.nil_append]
      have hout : replacements (outText (.part raw :: more)) =
          replacements (decodeReplace raw) + replacements (outText more) := by
        show replacements (redactText (decodeReplace raw) ++ outText more) = _
        rw [Utf8.replacements_append, replacements_redactText]
      rw [hwhole, hout]
      refine ⟨by omega, fun h => ?_⟩
      rcases Classical.or_iff_not_imp_left.mpr fun hnot : ¬ inCharacter raw (restOfLine more) = true =>
        (show ¬ CharacterClean more from fun hclean => h ⟨Bool.eq_false_iff.mpr hnot, hclean⟩) with
        hin | hmore'
      · have := hcut' hin
        omega
      · have := hlt hmore'
        omega

/-! ### Cuts in credentials -/

theorem keyLength_of_head {c : Char} {text : List Char} (h : isKeyChar c = false) :
    keyLength (c :: text) = 0 := by
  rcases Nat.eq_zero_or_pos (keyLength (c :: text)) with hzero | hpos
  · exact hzero
  · obtain ⟨start, run, rest, heq, hfour, hstart, -⟩ := keyLength_pos hpos
    match start, hfour with
    | [x, a, i, hyphen], _ =>
      have hx := (isKeyChar_of_start hstart).1
      simp only [List.cons_append, List.cons.injEq] at heq
      rw [← heq.1, h] at hx
      cases hx

theorem head?_redactText {text : List Char} (hne : text ≠ []) (more : List Char) :
    (keyLength text = 0 ∧ (redactText text ++ more).head? = text.head?) ∨
      (0 < keyLength text ∧ (redactText text ++ more).head? = some '[') := by
  cases text with
  | nil => exact absurd rfl hne
  | cons c rest =>
    rcases Nat.eq_zero_or_pos (keyLength (c :: rest)) with hzero | hpos
    · refine .inl ⟨hzero, ?_⟩
      unfold redactText
      rw [Substitution.Pattern.sub_cons_of_no_match hzero]
      rfl
    · refine .inr ⟨hpos, ?_⟩
      unfold redactText
      rw [Substitution.Pattern.sub_of_match hpos]
      rfl

theorem head?_outText {emissions : List Emission} (h : CharacterClean emissions)
    (hne : decodeReplace (restOfLine emissions) ≠ []) :
    (outText emissions).head? = (decodeReplace (restOfLine emissions)).head? ∨
      ((outText emissions).head? = some '[' ∧
        0 < keyLength (decodeReplace (restOfLine emissions))) := by
  induction emissions with
  | nil => exact absurd rfl hne
  | cons e more ih =>
    cases e with
    | line raw =>
      rcases head?_redactText hne ('\n' :: outText more) with ⟨-, hhead⟩ | ⟨hpos, hhead⟩
      · exact .inl hhead
      · exact .inr ⟨hhead, hpos⟩
    | part raw =>
      obtain ⟨hcut, hmore⟩ := h
      have hdecode : decodeReplace (restOfLine (.part raw :: more)) =
          decodeReplace raw ++ decodeReplace (restOfLine more) := Utf8.decodeReplace_append hcut
      rw [hdecode] at hne ⊢
      by_cases hraw : decodeReplace raw = []
      · rw [hraw, List.nil_append] at hne ⊢
        have hout : outText (.part raw :: more) = outText more := by
          show redactText (decodeReplace raw) ++ outText more = _
          rw [hraw]
          rfl
        rw [hout]
        exact ih hmore hne
      · rcases head?_redactText hraw (outText more) with ⟨-, hhead⟩ | ⟨hpos, hhead⟩
        · refine .inl (hhead.trans ?_)
          rw [List.head?_append_of_ne_nil _ hraw]
        · exact .inr ⟨hhead, Nat.lt_of_lt_of_le hpos (secretShape.mono _ _)⟩

theorem head?_behindLine (emissions : List Emission) :
    (behindLine emissions).head? = none ∨ (behindLine emissions).head? = some '\n' := by
  induction emissions with
  | nil => exact .inl rfl
  | cons e more ih =>
    cases e with
    | line raw => exact .inr rfl
    | part raw => exact ih

/-- The run of a credential is what is behind its start as long as key characters last. -/
theorem takeWhile_run {run rest : List Char} (hrun : ∀ c ∈ run, isKeyChar c = true)
    (hrest : ∀ c ∈ rest.head?, isKeyChar c = false) : (run ++ rest).takeWhile isKeyChar = run := by
  rw [List.takeWhile_append_of_pos hrun]
  cases rest with
  | nil => simp
  | cons c rest =>
    have hc := hrest c rfl
    simp [hc]

/-- **A credential that is cut**: the part before the cut is not replaced, or all of it is, and
then the credential goes on behind the cut. -/
theorem key_cut {after more : List Char} (hlt : after.length < keyLength (after ++ more)) :
    keyLength after = 0 ∨ (keyLength after = after.length ∧ ∃ run rest, more = run ++ rest ∧
      run ≠ [] ∧ (∀ c ∈ run, isKeyChar c = true) ∧ (∀ c ∈ rest.head?, isKeyChar c = false) ∧
      (after ++ more).drop (keyLength (after ++ more)) = rest) := by
  rcases Nat.eq_zero_or_pos (keyLength after) with hzero | hpos
  · exact .inl hzero
  right
  obtain ⟨start, run, rest, heq, hfour, -, hrun, hrest, -, hlength⟩ :=
    keyLength_pos (Nat.lt_of_le_of_lt (Nat.zero_le _) hlt)
  obtain ⟨start', run', rest', rfl, hfour', -, hrun', hrest', -, hlength'⟩ := keyLength_pos hpos
  rw [List.append_assoc, List.append_assoc, List.append_assoc] at heq
  obtain ⟨rfl, htail⟩ := List.append_inj heq (hfour'.trans hfour.symm)
  have hnil : rest' = [] := by
    cases rest' with
    | nil => rfl
    | cons c rest' =>
      -- a key character less ends the credential before the cut
      have hfirst := takeWhile_run hrun hrest
      have hsecond : (run' ++ (c :: rest' ++ more)).takeWhile isKeyChar = run' :=
        takeWhile_run hrun' hrest'
      rw [htail, hfirst] at hsecond
      subst hsecond
      rw [hlength, List.length_append, List.length_append, List.length_cons] at hlt
      omega
  subst hnil
  rw [List.nil_append] at htail
  rw [List.append_nil] at hlength hlength' hlt ⊢
  have hlong : run'.length < run.length := by
    rw [hlength, List.length_append] at hlt
    omega
  refine ⟨by rw [hlength', List.length_append]; omega, run.drop run'.length, rest, ?_, ?_, ?_, hrest,
    ?_⟩
  · have hdrop := congrArg (List.drop run'.length) htail
    rw [List.drop_left, List.drop_append_of_le_length (Nat.le_of_lt hlong)] at hdrop
    exact hdrop
  · intro hnil
    have := congrArg List.length hnil
    rw [List.length_drop, List.length_nil] at this
    omega
  · exact fun c hc => hrun c (List.mem_of_mem_drop hc)
  · have hwhole : start' ++ run' ++ more = (start' ++ run) ++ rest := by
      rw [List.append_assoc, htail, List.append_assoc]
    rw [hlength, hwhole, List.drop_left' (by rw [List.length_append]; omega)]

/-- **A cut in a credential** makes a difference. -/
theorem outText_ne_of_carry {text : List Char} {emissions : List Emission}
    (hclean : CharacterClean emissions)
    (hcarry : secretShape.carry text (decodeReplace (restOfLine emissions)) ≠ 0) :
    redactText text ++ outText emissions ≠
      redactText (text ++ decodeReplace (restOfLine emissions)) ++ behindLine emissions := by
  obtain ⟨before, after, rfl, hne, hbefore, hlt⟩ :=
    Substitution.Pattern.exists_of_carry hcarry
  have hpos : 0 < keyLength (after ++ decodeReplace (restOfLine emissions)) :=
    Nat.lt_of_le_of_lt (Nat.zero_le _) hlt
  intro heq
  unfold redactText at heq
  rw [List.append_assoc before, Substitution.Pattern.sub_append hbefore,
    Substitution.Pattern.sub_append (Substitution.Pattern.carry_of_append hbefore),
    List.append_assoc, List.append_assoc] at heq
  have hrest := List.append_cancel_left heq
  rw [Substitution.Pattern.sub_of_match (show 0 < secretShape.matchLength _ from hpos),
    List.append_assoc] at hrest
  rcases key_cut hlt with hzero | ⟨hall, run, rest, hmore, hrun, hkeys, hend, hdrop⟩
  · -- the start is copied, and not replaced
    have hhead := congrArg List.head? hrest
    rcases head?_redactText hne (outText emissions) with ⟨-, hcopied⟩ | ⟨hmatch, -⟩
    · rw [show (secretShape.sub redacted after ++ outText emissions).head? = after.head? from
        hcopied] at hhead
      obtain ⟨start, run, rest, hparts, hfour, hstart, -⟩ := keyLength_pos hpos
      match start, hfour with
      | [x, a, i, hyphen], _ =>
        have hx := (isKeyChar_of_start hstart).1
        cases after with
        | nil => exact hne rfl
        | cons c after =>
          simp only [List.cons_append, List.cons.injEq] at hparts
          have hc : some c = some '[' := hhead
          rw [← hparts.1, Option.some.inj hc] at hx
          exact absurd hx (by decide)
    · omega
  · -- the part before the cut is replaced, and the rest goes out
    have hafter : secretShape.sub redacted after = redacted := by
      have hposAfter : 0 < keyLength after := by
        rw [hall]
        exact List.length_pos_of_ne_nil hne
      rw [Substitution.Pattern.sub_of_match (show 0 < secretShape.matchLength _ from hposAfter)]
      show redacted ++ secretShape.sub redacted (after.drop (keyLength after)) = redacted
      rw [hall, List.drop_length]
      exact List.append_nil _
    rw [hafter] at hrest
    have hout := List.append_cancel_left hrest
    change outText emissions = secretShape.sub redacted
      (List.drop (keyLength (after ++ decodeReplace (restOfLine emissions))) _) ++ _ at hout
    rw [hdrop] at hout
    have hhead := congrArg List.head? hout
    have hlast : (secretShape.sub redacted rest ++ behindLine emissions).head? = rest.head? ∨
        rest = [] := by
      cases rest with
      | nil => exact .inr rfl
      | cons c rest =>
        rcases head?_redactText (List.cons_ne_nil c rest) (behindLine emissions) with
          ⟨-, hcopied⟩ | ⟨hmatch, -⟩
        · exact .inl hcopied
        · rw [keyLength_of_head (hend c rfl)] at hmatch
          exact absurd hmatch (Nat.lt_irrefl _)
    have hnotKey : ∀ c ∈ (secretShape.sub redacted rest ++ behindLine emissions).head?,
        isKeyChar c = false := by
      intro c hc
      rcases hlast with hsame | rfl
      · rw [hsame] at hc
        exact hend c hc
      · rcases head?_behindLine emissions with hnone | hnewline
        · rw [show (secretShape.sub redacted [] ++ behindLine emissions).head? = none from hnone] at hc
          cases hc
        · rw [show (secretShape.sub redacted [] ++ behindLine emissions).head? = some '\n' from
            hnewline] at hc
          cases hc
          decide
    have hrunHead : ∃ c, (run ++ rest).head? = some c ∧ isKeyChar c = true := by
      cases run with
      | nil => exact absurd rfl hrun
      | cons c run => exact ⟨c, rfl, hkeys c List.mem_cons_self⟩
    have hneRest : decodeReplace (restOfLine emissions) ≠ [] := by
      rw [hmore]
      exact fun hnil => hrun (List.append_eq_nil_iff.mp hnil).1
    rcases head?_outText hclean hneRest with hcopied | ⟨hmarker, hmatch⟩
    · obtain ⟨c, hc, hkey⟩ := hrunHead
      rw [hcopied, hmore, hc] at hhead
      rw [hnotKey c hhead.symm] at hkey
      cases hkey
    · -- another credential starts behind the cut, so that its hyphen is what comes next
      obtain ⟨start, run', rest', hparts, hfour, hstart, -⟩ := keyLength_pos hmatch
      match start, hfour with
      | [x, a, i, hyphen], _ =>
        obtain ⟨hx, ha, hi, rfl⟩ := isKeyChar_of_start hstart
        have hdropRun : (decodeReplace (restOfLine emissions)).dropWhile isKeyChar = rest := by
          rw [hmore, List.dropWhile_append_of_pos hkeys]
          cases rest with
          | nil => rfl
          | cons c rest => simp [hend c rfl]
        rw [hparts] at hdropRun
        simp only [List.cons_append, List.dropWhile_cons, hx, ha, hi, if_true,
          show isKeyChar '-' = false by decide, Bool.false_eq_true, if_false] at hdropRun
        rcases hlast with hsame | hnil
        · rw [hmarker, hsame, ← hdropRun] at hhead
          exact absurd (Option.some.inj hhead) (by decide)
        · rw [hnil] at hdropRun
          cases hdropRun

/-! ### The exact condition -/

theorem CharacterClean.of_clean {emissions : List Emission} (h : Clean emissions) :
    CharacterClean emissions := by
  induction emissions with
  | nil => trivial
  | cons e more ih =>
    cases e with
    | line raw => exact ih h
    | part raw => exact ⟨h.1.1, ih h.2⟩

/-- **Where no character is cut**, the text is the redacted text of each line if and only if no
credential is cut. -/
theorem outText_eq_iff {emissions : List Emission} (h : CharacterClean emissions) :
    outText emissions = wholeFrom [] emissions ↔ Clean emissions := by
  induction emissions with
  | nil => exact iff_of_true rfl trivial
  | cons e more ih =>
    cases e with
    | line raw =>
      refine Iff.trans ?_ (ih h)
      show redactText (decodeReplace raw) ++ '\n' :: outText more =
        redactText (decodeReplace raw) ++ '\n' :: wholeFrom [] more ↔ _
      rw [List.append_cancel_left_eq, List.cons.injEq]
      exact and_iff_right rfl
    | part raw =>
      obtain ⟨hcut, hmore⟩ := h
      have hwhole : wholeFrom [] (.part raw :: more) =
          redactText (decodeReplace raw ++ decodeReplace (restOfLine more)) ++
            behindLine more := by
        show wholeFrom ([] ++ raw) more = _
        rw [wholeFrom_eq, List.nil_append, Utf8.decodeReplace_append hcut]
      rw [hwhole]
      show redactText (decodeReplace raw) ++ outText more = _ ↔ _
      by_cases hcarry : secretShape.carry (decodeReplace raw) (decodeReplace (restOfLine more)) = 0
      · have hsplit : redactText (decodeReplace raw ++ decodeReplace (restOfLine more)) =
            redactText (decodeReplace raw) ++ redactText (decodeReplace (restOfLine more)) :=
          Substitution.Pattern.sub_append hcarry
        have hrest : redactText (decodeReplace (restOfLine more)) ++ behindLine more =
            wholeFrom [] more := by
          rw [wholeFrom_eq, List.nil_append]
        rw [hsplit, List.append_assoc, List.append_cancel_left_eq, hrest, ih hmore]
        exact ⟨fun hclean => ⟨⟨hcut, hcarry⟩, hclean⟩, fun hclean => hclean.2⟩
      · exact ⟨fun heq => absurd heq (outText_ne_of_carry hmore hcarry),
          fun hclean => absurd hclean.1.2 hcarry⟩

/-- What is taken out behind the open line, where each line is redacted in one piece. -/
def behindTaken : List Emission → List Bool
  | [] => []
  | .line _ :: more => false :: secretBytesFrom [] (more.flatMap Emission.source)
  | .part _ :: more => behindTaken more

theorem secretBytesFrom_source {emissions : List Emission} (h : ∀ e ∈ emissions, e.Within)
    (open_ : Bytes) :
    secretBytesFrom open_ (emissions.flatMap Emission.source) =
      secretBytes (open_ ++ restOfLine emissions) ++ behindTaken emissions := by
  induction emissions generalizing open_ with
  | nil =>
    show secretBytes open_ = secretBytes (open_ ++ []) ++ []
    rw [List.append_nil, List.append_nil]
  | cons e more ih =>
    have hmore := ih fun e he => h e (List.mem_cons_of_mem _ he)
    have hraw := h e List.mem_cons_self
    rw [List.flatMap_cons]
    cases e with
    | line raw =>
      show secretBytesFrom open_ (raw ++ [10] ++ _) = _
      rw [List.append_assoc, secretBytesFrom_append hraw]
      show secretBytes (open_ ++ raw) ++ [false] ++ _ = _
      rw [List.append_assoc]
      rfl
    | part raw =>
      show secretBytesFrom open_ (raw ++ _) = _
      rw [secretBytesFrom_append hraw, hmore, List.append_assoc]
      rfl

/-- **Clean cuts take out** what is taken out of whole lines. -/
theorem takenOut_of_clean {emissions : List Emission} (hwithin : ∀ e ∈ emissions, e.Within)
    (h : Clean emissions) :
    emissions.flatMap Emission.takenOut =
      secretBytesFrom [] (emissions.flatMap Emission.source) := by
  rw [secretBytesFrom_source hwithin, List.nil_append]
  induction emissions with
  | nil => rfl
  | cons e more ih =>
    have hmore := fun e he => hwithin e (List.mem_cons_of_mem _ he)
    rw [List.flatMap_cons]
    cases e with
    | line raw =>
      show (secretBytes raw ++ [false]) ++ _ = secretBytes raw ++ (false :: secretBytesFrom [] _)
      rw [ih hmore h, secretBytesFrom_source hmore, List.append_assoc]
      rfl
    | part raw =>
      show secretBytes raw ++ _ = secretBytes (raw ++ restOfLine more) ++ behindTaken more
      rw [ih hmore h.2, secretBytes_append h.1, List.append_assoc]

section Stream

variable (flushBytes : ℤ) (events : List Event)

theorem emissions_spec :
    (emissions flushBytes events).flatMap Emission.source = streamOf events ∧
      ∀ e ∈ emissions flushBytes events, e.Within :=
  emissionsFrom_spec flushBytes events [] nofun

/-- **The redaction is the one line by line** if and only if no cut is in a character or in a
credential. -/
theorem filterStream_eq_iff :
    filterStream flushBytes events = redactLines (streamOf events) ↔
      Clean (emissions flushBytes events) := by
  obtain ⟨hsource, hwithin⟩ := emissions_spec flushBytes events
  have hlines : redactLines (streamOf events) =
      Utf8.encode (wholeFrom [] (emissions flushBytes events)) := by
    unfold redactLines
    rw [← hsource]
    exact redactLinesFrom_source hwithin []
  unfold filterStream
  rw [flatMap_output, hlines]
  constructor
  · intro heq
    have htext := Utf8.encode_inj heq
    have hcharacters : CharacterClean (emissions flushBytes events) := by
      by_contra hcut
      have hlt := (replacements_outText _).2 hcut
      rw [htext] at hlt
      exact absurd hlt (Nat.lt_irrefl _)
    exact (outText_eq_iff hcharacters).mp htext
  · intro hclean
    rw [(outText_eq_iff (CharacterClean.of_clean hclean)).mpr hclean]

theorem noLeak_of_clean (h : Clean (emissions flushBytes events)) : NoLeak flushBytes events := by
  obtain ⟨hsource, hwithin⟩ := emissions_spec flushBytes events
  intro i hi
  rw [takenOut_of_clean hwithin h, hsource]
  exact hi

/-- **What a stream is promised**: nothing of a credential is written, and what is written of a
text is its redaction line by line. -/
def Redacted : Prop :=
  NoLeak flushBytes events ∧
    ((Utf8.decode (streamOf events)).isSome →
      filterStream flushBytes events = redactLines (streamOf events))

/-- **Redaction in parts** keeps its promise where no part ends in a character or in a credential,
and for a text it does so in no other case. -/
theorem streaming_redaction_iff :
    (Clean (emissions flushBytes events) → Redacted flushBytes events) ∧
      ((Utf8.decode (streamOf events)).isSome →
        (Redacted flushBytes events ↔ Clean (emissions flushBytes events))) := by
  have hclean : Clean (emissions flushBytes events) → Redacted flushBytes events :=
    fun h => ⟨noLeak_of_clean flushBytes events h,
      fun _ => (filterStream_eq_iff flushBytes events).mpr h⟩
  refine ⟨hclean, fun hvalid => ⟨fun h => ?_, hclean⟩⟩
  exact (filterStream_eq_iff flushBytes events).mp (h.2 hvalid)

end Stream

/-- A start that is too short to be a credential is held back until the rest has come. -/
theorem short_start_redacted :
    Redacted 8 [.chunk (Utf8.encode "key xai-abcdefgh".toList),
      .chunk (Utf8.encode "ijklmnopqrstuvwx\n".toList)] :=
  (streaming_redaction_iff 8 _).1 (by decide +kernel)

/-- A credential that comes in two parts. -/
def twoPartKey : List Event :=
  [.chunk (Utf8.encode "xai-abcdefghijklmnopqrst".toList), .chunk (Utf8.encode "secret\n".toList)]

/-- The start of a credential that is long enough to be one is replaced and goes out, and the rest
of it goes out as it is. -/
theorem long_key_leaks :
    filterStream 8 twoPartKey = Utf8.encode "[redacted]secret\n".toList ∧
      redactLines (streamOf twoPartKey) = Utf8.encode "[redacted]\n".toList ∧
      ¬ Redacted 8 twoPartKey := by
  refine ⟨by decide +kernel, by decide +kernel, fun h => ?_⟩
  have hsecret : (secretBytesFrom [] (streamOf twoPartKey))[24]? = some true := by decide +kernel
  have hwritten : ((emissions 8 twoPartKey).flatMap Emission.takenOut)[24]? = some false := by
    decide +kernel
  have htaken := h.1 24 hsecret
  rw [hwritten] at htaken
  exact absurd htaken (by decide)

end GoalFlight.Output
