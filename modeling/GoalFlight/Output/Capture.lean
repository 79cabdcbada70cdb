import GoalFlight.Output.Streaming

/-!
# Output: the capture of an agent's errors

`AgentStderrCapture` keeps the end of what an ACP agent writes to its standard error.  What has
been read before is redacted already, so each read is redacted together with the last characters
that are kept.  `capture_redacted` is when the file is the end of the stream redacted in one
piece: no read may end in a character, a credential that is open at the end of a read may not be
long enough to be taken out yet, and the limit may not cut a character.
-/

namespace GoalFlight.Output

open Substitution.Pattern
open Utf8 (Bytes decodeReplace inCharacter)

/-! ### The capture -/

/-- `_REDACT_OVERLAP`. -/
def redactOverlap : ℕ := 84

/-- What is kept of a stream, and the bytes in the file. -/
structure Capture where
  text : List Char
  file : Bytes

/-- What is kept with one read more, however long: only the overlap is redacted again. -/
def Capture.grown (c : Capture) (chunk : Bytes) : List Char :=
  let kept := c.text.length - redactOverlap
  c.text.take kept ++ redactText (c.text.drop kept ++ decodeReplace chunk)

/-- `_append`. -/
def Capture.append (maxBytes : ℕ) (c : Capture) (chunk : Bytes) : Capture :=
  if chunk = [] then c
  else
    let encoded := Utf8.encode (c.grown chunk)
    if maxBytes < encoded.length then
      let encoded := encoded.drop (encoded.length - maxBytes)
      ⟨decodeReplace encoded, encoded⟩
    else ⟨c.grown chunk, encoded⟩

/-- `max(1, int(max_bytes))`. -/
def limitOf (maxBytes : ℤ) : ℕ := (max 1 maxBytes).toNat

/-- **`_drain`**: what is kept after some reads. -/
def capture (maxBytes : ℤ) (reads : List Bytes) : Capture :=
  reads.foldl (Capture.append (limitOf maxBytes)) ⟨[], []⟩

/-! ### What the file is to hold -/

/-- The stream so far, redacted in one piece. -/
def redaction (reads : List Bytes) : Bytes := Utf8.encode (redactText (decodeReplace reads.flatten))

/-- **The end of the redaction**: at most the limit, and all of it if it has never been longer; and
no credential is in it. -/
structure Holds (maxBytes : ℤ) (reads : List Bytes) (file : Bytes) : Prop where
  ends : file <:+ redaction reads
  bound : file.length ≤ limitOf maxBytes
  whole : (∀ i ≤ reads.length, (redaction (reads.take i)).length ≤ limitOf maxBytes) →
    file = redaction reads
  clean : ∀ before token after, token ≠ [] → keyLength token = token.length →
    file ≠ before ++ (Utf8.encode token ++ after)

/-- **A read that is cut well**: not in a character, behind a kept text that was not cut in a
character either, and where a credential goes over the cut, its part so far is too short to be
taken out and is still kept. -/
def CutWell (c : Capture) (read chunk : Bytes) : Prop :=
  inCharacter read chunk = false ∧ c.file = Utf8.encode c.text ∧
    ∀ i ≤ (decodeReplace read).length,
      let before := (decodeReplace read).take i
      let open_ := (decodeReplace read).drop i
      secretShape.carry before (open_ ++ decodeReplace chunk) = 0 →
        open_.length < keyLength (open_ ++ decodeReplace chunk) →
          keyLength open_ = 0 ∧ open_.length ≤ min redactOverlap c.text.length

instance (c : Capture) (read chunk : Bytes) : Decidable (CutWell c read chunk) :=
  inferInstanceAs (Decidable (_ ∧ _ ∧ _))

/-! ### Redacted texts -/

/-- No credential starts in the marker or goes over one. -/
theorem inert_redacted : secretShape.Inert redacted where
  reaches before after := by
    by_contra hlong
    obtain ⟨m, hm⟩ := Nat.exists_eq_add_of_lt (Nat.not_le.mp hlong)
    refine notMem_key (c := '[') (by decide) (by decide) (before ++ (redacted ++ after)) ?_
    show '[' ∈ List.take (secretShape.matchLength (before ++ (redacted ++ after))) _
    rw [hm, List.take_append]
    refine List.mem_append_right _ ?_
    rw [show before.length + m + 1 - before.length = m + 1 by omega]
    exact List.mem_cons_self
  starts after start hne hstart := by
    obtain ⟨c, start, rfl⟩ := List.exists_cons_of_ne_nil hne
    have hc : Watch.sameLetter 'x' c = false := by
      have hall : ∀ c ∈ redacted, Watch.sameLetter 'x' c = false := by decide
      exact hall c (hstart.subset List.mem_cons_self)
    rcases Nat.eq_zero_or_pos (keyLength (c :: start ++ after)) with hzero | hpos
    · exact hzero
    · obtain ⟨head, run, rest, heq, hfour, hhead, -⟩ := keyLength_pos hpos
      match head, hfour with
      | [x, a, i, hyphen], _ =>
        obtain ⟨rfl, -⟩ := List.cons.inj heq
        simp [isKeyStart, hc] at hhead

/-- The part of a credential before a cut is not touched, as long as it is too short. -/
theorem quiet_open {open_ more : List Char} (hlt : open_.length < keyLength (open_ ++ more))
    (hzero : keyLength open_ = 0) : secretShape.Quiet open_ [] := by
  rintro start hne ⟨before, rfl⟩
  rw [List.append_nil]
  rcases Nat.eq_zero_or_pos (keyLength start) with hnone | hpos
  · exact hnone
  · obtain ⟨head, run, rest, rfl, hfour, hhead, -⟩ := keyLength_pos hpos
    obtain ⟨head', run', rest', heq, hfour', -, hrun', -, -, hlength⟩ :=
      keyLength_pos (Nat.lt_of_le_of_lt (Nat.zero_le _) hlt)
    match head, hfour with
    | [x, a, i, hyphen], _ =>
      obtain ⟨-, -, -, rfl⟩ := isKeyChar_of_start hhead
      by_cases hbefore : before = []
      · subst hbefore
        exact hzero
      -- the hyphen of the later start would be in the run of the credential
      have hpos := List.length_pos_iff.mpr hbefore
      rw [hlength] at hlt
      simp only [List.length_append, List.length_cons, List.length_nil] at hlt
      have hhyphen : (before ++ ([x, a, i, '-'] ++ run ++ rest) ++ more)[before.length + 3]? =
          some '-' := by simp
      rw [heq, List.append_assoc, List.getElem?_append_right (by omega),
        List.getElem?_append_left (by omega)] at hhyphen
      exact absurd (hrun' _ (List.mem_of_getElem? hhyphen)) (by decide)

/-! ### One read more -/

variable {maxBytes : ℤ} {reads : List Bytes} {c : Capture} {read chunk : Bytes}

/-- **What is kept goes on** as the redaction of the stream does. -/
theorem redactText_append {gone : List Char}
    (htext : redactText (decodeReplace read) = gone ++ c.text) (hcut : CutWell c read chunk) :
    redactText (decodeReplace (read ++ chunk)) = gone ++ c.grown chunk := by
  obtain ⟨hchar, -, htoken⟩ := hcut
  rw [Utf8.decodeReplace_append hchar]
  unfold Capture.grown
  simp only
  generalize decodeReplace chunk = incoming at htoken ⊢
  obtain ⟨before, open_, hread, hcarry, hquiet, hlen⟩ : ∃ before open_,
      decodeReplace read = before ++ open_ ∧ secretShape.carry before (open_ ++ incoming) = 0 ∧
        secretShape.Quiet open_ [] ∧ open_.length ≤ min redactOverlap c.text.length := by
    by_cases hcarry : secretShape.carry (decodeReplace read) incoming = 0
    · exact ⟨_, [], (List.append_nil _).symm, hcarry,
        fun start hne hstart => absurd (List.suffix_nil.mp hstart) hne, Nat.zero_le _⟩
    · obtain ⟨before, open_, hread, -, hcarry, hlt⟩ := exists_of_carry hcarry
      have hopen := htoken before.length (by rw [hread, List.length_append]; omega)
      simp only [hread, List.take_left, List.drop_left] at hopen
      obtain ⟨hzero, hlen⟩ := hopen hcarry hlt
      exact ⟨before, open_, hread, hcarry, quiet_open hlt hzero, hlen⟩
  have hkept : redactText (before ++ open_) = redactText before ++ open_ := by
    have hopen : secretShape.sub redacted _ = _ := sub_of_quiet hquiet
    rw [List.append_nil, sub_nil, List.append_nil] at hopen
    exact (sub_append (carry_of_append hcarry)).trans (congrArg (redactText before ++ ·) hopen)
  rw [hread, hkept] at htext
  -- the open part is at the end of what is kept
  obtain ⟨text, hbefore, htail⟩ : ∃ text, redactText before = gone ++ text ∧
      c.text = text ++ open_ := by
    rcases List.append_eq_append_iff.mp htext with ⟨w, hgone, hopen⟩ | ⟨w, hbefore, htail⟩
    · have hlength := congrArg List.length hopen
      rw [List.length_append] at hlength
      obtain rfl := List.length_eq_zero_iff.mp (show w.length = 0 by omega)
      exact ⟨[], by rw [hgone, List.append_nil, List.append_nil], hopen.symm⟩
    · exact ⟨w, hbefore, htail⟩
  have hle : c.text.length - redactOverlap ≤ text.length := by
    rw [htail, List.length_append]
    omega
  generalize c.text.length - redactOverlap = cut at hle ⊢
  have hsuffix : text.drop cut <:+ redactText before := by
    rw [hbefore]
    exact (List.drop_suffix cut text).trans (List.suffix_append gone text)
  have hnew : redactText (text.drop cut ++ (open_ ++ incoming)) =
      text.drop cut ++ redactText (open_ ++ incoming) :=
    sub_of_quiet ((quiet_sub inert_redacted hcarry).of_suffix hsuffix)
  have hwhole : redactText (before ++ (open_ ++ incoming)) =
      redactText before ++ redactText (open_ ++ incoming) := sub_append hcarry
  rw [hread, List.append_assoc, hwhole, hbefore, htail, List.take_append_of_le_length hle,
    List.drop_append_of_le_length hle, List.append_assoc (text.drop cut), hnew,
    ← List.append_assoc (text.take cut), List.take_append_drop, List.append_assoc]

/-- **No credential is in the end of a redaction.** -/
theorem clean_of_suffix {file : Bytes} (h : file <:+ redaction reads) (before : Bytes)
    (token : List Char) (after : Bytes) (hne : token ≠ [])
    (hkey : keyLength token = token.length) : file ≠ before ++ (Utf8.encode token ++ after) := by
  rintro rfl
  obtain ⟨gone, hgone⟩ := h
  rw [← List.append_assoc] at hgone
  obtain ⟨kept, rest, htext, -, -⟩ := Utf8.exists_of_encode_infix hne hgone.symm
  have hsuffix : token ++ rest <:+ redactText (decodeReplace reads.flatten) := by
    rw [htext]
    exact List.suffix_append kept _
  have hzero := quiet_sub inert_redacted carry_nil (token ++ rest) (by simp [hne]) hsuffix
  rw [List.append_nil] at hzero
  have hmono := secretShape.mono token rest
  rw [hzero] at hmono
  have hle : keyLength token ≤ 0 := hmono
  have hpos := List.length_pos_iff.mpr hne
  omega

theorem capture_concat (maxBytes : ℤ) (reads : List Bytes) (chunk : Bytes) :
    capture maxBytes (reads ++ [chunk]) =
      (capture maxBytes reads).append (limitOf maxBytes) chunk := by
  simp [capture]

/-- The file is the end of the redaction up to a character. -/
theorem exists_gone {gone : Bytes} (hgone : gone ++ c.file = redaction reads)
    (hfile : c.file = Utf8.encode c.text) : ∃ text, gone = Utf8.encode text ∧
      redactText (decodeReplace reads.flatten) = text ++ c.text := by
  rw [hfile] at hgone
  by_cases hempty : c.text = []
  · rw [hempty, Utf8.encode_nil, List.append_nil] at hgone
    exact ⟨_, hgone, by rw [hempty, List.append_nil]⟩
  · rw [← List.append_nil (Utf8.encode c.text)] at hgone
    obtain ⟨text, rest, htext, hbefore, hrest⟩ := Utf8.exists_of_encode_infix hempty hgone.symm
    obtain rfl : [] = rest := Utf8.encode_inj hrest
    rw [List.append_nil] at htext
    exact ⟨text, hbefore, htext⟩

/-- **One read keeps the file the end of the redaction.** -/
theorem Holds.append (h : Holds maxBytes reads (capture maxBytes reads).file)
    (hcut : CutWell (capture maxBytes reads) reads.flatten chunk) :
    Holds maxBytes (reads ++ [chunk]) (capture maxBytes (reads ++ [chunk])).file := by
  rw [capture_concat]
  generalize capture maxBytes reads = c at h hcut ⊢
  obtain ⟨gone, hgone⟩ := h.ends
  obtain ⟨text, rfl, htext⟩ := exists_gone hgone hcut.2.1
  have hread : redaction (reads ++ [chunk]) =
      Utf8.encode text ++ Utf8.encode (c.grown chunk) := by
    unfold redaction
    rw [List.flatten_append, List.flatten_singleton, redactText_append htext hcut,
      Utf8.encode_append]
  have hwhole (hle : ∀ i ≤ (reads ++ [chunk]).length,
      (redaction ((reads ++ [chunk]).take i)).length ≤ limitOf maxBytes) :
      c.file = redaction reads ∧ (redaction (reads ++ [chunk])).length ≤ limitOf maxBytes := by
    constructor
    · refine h.whole fun i hi => ?_
      have hbefore := hle i (by rw [List.length_append]; omega)
      rwa [List.take_append_of_le_length hi] at hbefore
    · have hlast := hle _ (Nat.le_refl _)
      rwa [List.take_length] at hlast
  unfold Capture.append
  split
  · rename_i hempty
    have hsame : redaction (reads ++ [chunk]) = redaction reads := by simp [redaction, hempty]
    exact ⟨hsame ▸ h.ends, h.bound, fun hle => (hwhole hle).1.trans hsame.symm, h.clean⟩
  · simp only
    split
    · have hends := (List.drop_suffix ((Utf8.encode (c.grown chunk)).length - limitOf maxBytes)
        (Utf8.encode (c.grown chunk))).trans (hread ▸ List.suffix_append _ _)
      refine ⟨hends, by rw [List.length_drop]; omega, fun hle => ?_, clean_of_suffix hends⟩
      have hlength := (hwhole hle).2
      rw [hread, List.length_append] at hlength
      omega
    · have hends : Utf8.encode (c.grown chunk) <:+ redaction (reads ++ [chunk]) :=
        hread ▸ List.suffix_append _ _
      refine ⟨hends, Nat.not_lt.mp ‹_›, fun hle => ?_, clean_of_suffix hends⟩
      rw [(hwhole hle).1] at hgone
      rw [hread, List.append_left_eq_self.mp hgone, List.nil_append]

theorem holds_nil (maxBytes : ℤ) : Holds maxBytes [] (capture maxBytes []).file :=
  have hends : [] <:+ redaction [] := List.nil_suffix
  ⟨hends, Nat.zero_le _, fun _ => rfl, clean_of_suffix hends⟩

/-- **The capture keeps no part of a credential**: when every read is cut well, the file is the end
of the redaction of the stream after each of them. -/
theorem capture_redacted (maxBytes : ℤ) (reads : List Bytes)
    (h : ∀ i (hi : i < reads.length),
      CutWell (capture maxBytes (reads.take i)) (reads.take i).flatten reads[i]) :
    ∀ i ≤ reads.length, Holds maxBytes (reads.take i) (capture maxBytes (reads.take i)).file := by
  intro i
  induction i with
  | zero => exact fun _ => holds_nil maxBytes
  | succ i ih =>
    intro hi
    rw [List.take_succ_eq_append_getElem hi]
    exact (ih (Nat.le_of_lt hi)).append (h i hi)

/-- A credential cut where it is too short to be taken out. -/
def shortCut : List Bytes :=
  [Utf8.encode "key xai-abcdefgh".toList, Utf8.encode "ijklmnopqrstuvwx end".toList]

theorem capture_redacted_short : Holds 4096 shortCut (capture 4096 shortCut).file :=
  capture_redacted 4096 shortCut (by decide +kernel) 2 (Nat.le_refl 2)

/-- A credential that goes on behind the part that was long enough to be taken out is kept from
there on. -/
theorem capture_keeps_rest : ¬ ∀ (maxBytes : ℤ) (text : List Char) (reads : List Bytes),
    reads.flatten = Utf8.encode text → Holds maxBytes reads (capture maxBytes reads).file := by
  intro h
  have hheld := h 4096 _ [Utf8.encode "xai-abcdefghijklmnopqrst".toList, Utf8.encode "secret".toList]
    (Utf8.encode_append "xai-abcdefghijklmnopqrst".toList "secret".toList).symm
  exact absurd (hheld.whole (by decide +kernel)) (by decide +kernel)

end GoalFlight.Output
