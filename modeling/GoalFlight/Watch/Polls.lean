import Mathlib.Algebra.Ring.Nat
import Mathlib.Tactic.Set
import GoalFlight.Watch.Tail

/-!
# The watcher: polls of a log

Polling a log that is appended to is reading it once.  `reading` reads a whole log: its lines, the
echo of the prompt among all of them, the markers.  A scanner that has polled a log as far as it
goes keeps what `reading` makes of the completed lines (`Fed`), whatever the cuts were; the line
that has not ended is added on each poll.
-/

namespace GoalFlight.Watch

open Utf8 (Bytes decodeReplace)

variable {env : Lookups} {promptLines : List Line}

/-! ### Reading a whole log -/

/-- The lines that end in a line feed, with their numbers and offsets. -/
def recordsFrom (lineNo offset : ℕ) : List Bytes → List Record
  | [] => []
  | raw :: more =>
    ⟨lineNo, completedLine raw, offset + raw.length + 1⟩ ::
      recordsFrom (lineNo + 1) (offset + raw.length + 1) more

/-- The raw lines of a log. -/
def rawLines (content : Bytes) : List Bytes := (newlineBreaks.split content).ended

/-- The bytes after the last line feed. -/
def unfinishedOf (content : Bytes) : Bytes := newlineBreaks.unterminated content

/-- The completed lines. -/
def completedRecords (content : Bytes) : List Record := recordsFrom 1 0 (rawLines content)

/-- The line that has not ended, if there is one. -/
def lastRecord (content : Bytes) : List Record :=
  if unfinishedOf content = [] then []
  else
    [⟨(rawLines content).length + 1, decodeReplace (unfinishedOf content), content.length⟩]

/-- All lines of a log. -/
def allRecords (content : Bytes) : List Record := completedRecords content ++ lastRecord content

/-- **The reading of a log**, all at once. -/
def reading (env : Lookups) (promptLines : List Line) (content : Bytes) : MarkerState × Found :=
  TailScanner.parsePromptRecords env promptLines (allRecords content)

/-! ### Raw lines -/

theorem step_newline (ended : List Bytes) (current : Bytes) (last : Option UInt8) (b : UInt8) :
    newlineBreaks.step ⟨ended, current, last⟩ b =
      if b = 10 then ⟨ended ++ [current], [], some b⟩ else ⟨ended, current ++ [b], none⟩ := by
  unfold Lines.Breaks.step newlineBreaks
  cases last <;> simp

theorem foldl_newline (content : Bytes) (ended : List Bytes) (current : Bytes)
    (last : Option UInt8) :
    let s := content.foldl newlineBreaks.step ⟨ended, current, last⟩
    let own := content.foldl newlineBreaks.step ⟨[], current, none⟩
    s.ended = ended ++ own.ended ∧ s.current = own.current := by
  induction content generalizing ended current last with
  | nil => simp
  | cons b content ih =>
    simp only [List.foldl_cons, step_newline]
    by_cases hb : b = 10
    · simp only [hb, if_true, List.nil_append]
      have h := ih (ended ++ [current]) [] (some 10)
      have h' := ih [current] [] (some 10)
      rw [h.1, h'.1, h.2, h'.2]
      simp
    · simp only [hb, if_false]
      exact ih ended (current ++ [b]) none

theorem foldl_open (current : Bytes) (h : ∀ b ∈ current, b ≠ 10) (content : Bytes) :
    (current ++ content).foldl newlineBreaks.step ⟨[], [], none⟩ =
      content.foldl newlineBreaks.step ⟨[], current, none⟩ := by
  by_cases hnil : current = []
  · subst hnil
    rfl
  · rw [List.foldl_append, newlineBreaks.foldl_of_no_break hnil]
    · rfl
    · intro b hb
      simpa [newlineBreaks] using h b hb

theorem newline_notMem_unfinishedOf (content : Bytes) : ∀ b ∈ unfinishedOf content, b ≠ 10 := by
  intro b hb
  have h := newlineBreaks.unterminated_no_break content b hb
  simpa [newlineBreaks] using h

theorem rawLines_append (content more : Bytes) :
    rawLines (content ++ more) = rawLines content ++ rawLines (unfinishedOf content ++ more) ∧
      unfinishedOf (content ++ more) = unfinishedOf (unfinishedOf content ++ more) := by
  have hopen := foldl_open (unfinishedOf content) (newline_notMem_unfinishedOf content) more
  have hsplit := foldl_newline more (rawLines content) (unfinishedOf content)
    (newlineBreaks.split content).last
  unfold rawLines unfinishedOf Lines.Breaks.unterminated at *
  rw [Lines.Breaks.split_append]
  unfold Lines.Breaks.split at *
  rw [hopen]
  exact hsplit

/-- The bytes of raw lines, their line feeds included. -/
def sizeOf (raws : List Bytes) : ℕ := (raws.map fun raw => raw.length + 1).sum

theorem sizeOf_append (raws more : List Bytes) : sizeOf (raws ++ more) = sizeOf raws + sizeOf more := by
  unfold sizeOf
  rw [List.map_append, List.sum_append]

theorem length_content (content : Bytes) :
    content.length = sizeOf (rawLines content) + (unfinishedOf content).length := by
  induction content using List.reverseRecOn with
  | nil => rfl
  | append_singleton content b ih =>
    obtain ⟨hraw, hrest⟩ := rawLines_append content [b]
    have hone : ∀ current : Bytes, (∀ c ∈ current, c ≠ 10) →
        sizeOf (rawLines (current ++ [b])) + (unfinishedOf (current ++ [b])).length =
          current.length + 1 := by
      intro current hcurrent
      unfold rawLines unfinishedOf Lines.Breaks.unterminated Lines.Breaks.split
      rw [foldl_open current hcurrent, List.foldl_cons, List.foldl_nil, step_newline]
      split <;> simp [sizeOf]
    rw [hraw, hrest, sizeOf_append, Nat.add_assoc,
      hone _ (newline_notMem_unfinishedOf content), List.length_append, ih]
    simp [Nat.add_assoc]

theorem recordsFrom_append (lineNo offset : ℕ) (raws more : List Bytes) :
    recordsFrom lineNo offset (raws ++ more) =
      recordsFrom lineNo offset raws ++
        recordsFrom (lineNo + raws.length) (offset + sizeOf raws) more := by
  induction raws generalizing lineNo offset with
  | nil => simp [recordsFrom, sizeOf]
  | cons raw raws ih =>
    rw [List.cons_append, recordsFrom, recordsFrom, ih, List.cons_append]
    have hsize : offset + raw.length + 1 + sizeOf raws = offset + sizeOf (raw :: raws) := by
      simp [sizeOf]
      omega
    rw [hsize, show lineNo + 1 + raws.length = lineNo + (raw :: raws).length by simp; omega]

@[simp] theorem length_recordsFrom (lineNo offset : ℕ) (raws : List Bytes) :
    (recordsFrom lineNo offset raws).length = raws.length := by
  induction raws generalizing lineNo offset with
  | nil => rfl
  | cons raw raws ih => simp [recordsFrom, ih]

/-! ### One line more -/

theorem parsePromptRecords_concat (records : List Record) (r : Record) :
    TailScanner.parsePromptRecords env promptLines (records ++ [r]) =
      MarkerState.accept env (TailScanner.parsePromptRecords env promptLines records) r
        (isEcho promptLines ((records ++ [r]).map Record.line) records.length) := by
  unfold TailScanner.parsePromptRecords
  simp only [List.zipIdx_append, List.foldl_append, List.zipIdx_cons, List.zipIdx_nil,
    List.foldl_cons, List.foldl_nil, Nat.zero_add]
  congr 1
  -- whether an earlier line is an echo does not depend on this one
  refine List.foldl_ext _ _ _ fun s p hp => ?_
  have hindex : p.2 < (records.map Record.line).length := by
    rw [List.length_map]
    have := List.snd_lt_of_mem_zipIdx hp
    omega
  rw [List.map_append, isEcho_append _ hindex]

/-- Where no line is an echo any more. -/
def Settled (promptLines : List Line) (records : List Record) : Prop :=
  TailScanner.promptHasAnchors promptLines = false ∨
    TailScanner.promptRecordLimit promptLines ≤ records.length

instance (records : List Record) : Decidable (Settled promptLines records) := by
  unfold Settled
  infer_instance

variable {records : List Record}

theorem not_isEcho_of_settled (h : Settled promptLines records)
    (lines : List Line) : isEcho promptLines lines records.length = false := by
  rcases h with hnone | hlimit
  · refine isEcho_of_no_anchors ?_ _
    simpa [TailScanner.promptHasAnchors] using hnone
  · rw [Bool.eq_false_iff]
    intro hecho
    have := isEcho_lt hecho
    unfold TailScanner.promptRecordLimit at hlimit
    omega

theorem parsePromptRecords_concat_settled
    (h : Settled promptLines records) (r : Record) :
    TailScanner.parsePromptRecords env promptLines (records ++ [r]) =
      MarkerState.accept env (TailScanner.parsePromptRecords env promptLines records) r false := by
  rw [parsePromptRecords_concat, not_isEcho_of_settled h]

theorem Settled.append (h : Settled promptLines records)
    (more : List Record) : Settled promptLines (records ++ more) := by
  refine h.imp id fun hlimit => ?_
  rw [List.length_append]
  omega

/-! ### What a scanner keeps -/

/-- The scanner has read these lines: it keeps them, or their markers.  What it `found` since the
reading `earlier` goes on to the reading of these lines. -/
structure Kept (env : Lookups) (earlier : Found) (records : List Record)
    (s : TailScanner × Found) : Prop where
  nextLineNo : s.1.nextLineNo = records.length + 1
  stable : s.1.promptStable = decide (Settled s.1.promptLines records)
  state : s.1.promptStable = true →
    s.1.state = (TailScanner.parsePromptRecords env s.1.promptLines records).1
  found : s.1.promptStable = true → ∃ before,
    (TailScanner.parsePromptRecords env s.1.promptLines records).2 = before ++ s.2 ∧
      (before = [] ∨ before = earlier)
  records : s.1.promptStable = false → s.1.promptRecords = records

namespace Kept

variable {earlier : Found} {records : List Record} {s : TailScanner × Found}

theorem acceptCompletedLine (h : Kept env earlier records s) (line : Line) (offset : ℕ) :
    Kept env earlier (records ++ [⟨records.length + 1, line, offset⟩])
      (TailScanner.acceptCompletedLine env s line offset) := by
  obtain ⟨s, found⟩ := s
  have hline := h.nextLineNo
  have hstable := h.stable
  simp only at hline hstable
  unfold TailScanner.acceptCompletedLine
  simp only [hline]
  by_cases hsettled : Settled s.promptLines records
  · have htrue : s.promptStable = true := by rw [hstable, decide_eq_true_eq]; exact hsettled
    obtain ⟨before, hbefore, hor⟩ := h.found htrue
    have hstate := h.state htrue
    simp only at hbefore hstate
    have hnext := @parsePromptRecords_concat_settled env s.promptLines records hsettled
      ⟨records.length + 1, line, offset⟩
    rw [if_pos htrue]
    refine ⟨by simp, ?_, fun _ => ?_, fun _ => ⟨before, ?_, hor⟩, fun hfalse => ?_⟩
    · simp only
      rw [htrue, eq_comm, decide_eq_true_eq]
      exact hsettled.append _
    · simp only
      rw [hnext]
      simp [MarkerState.accept, hstate]
    · simp only
      rw [hnext]
      simp [MarkerState.accept, hstate, hbefore]
    · simp only at hfalse
      rw [htrue] at hfalse
      cases hfalse
  · have hfalse : s.promptStable = false := by
      rw [hstable, decide_eq_false_iff_not]
      exact hsettled
    have hno : ¬ s.promptStable = true := by rw [hfalse]; exact Bool.false_ne_true
    have hrecords := h.records hfalse
    simp only at hrecords
    have hanchors : TailScanner.promptHasAnchors s.promptLines = true := by
      rw [← Bool.not_eq_false]
      exact fun hnone => hsettled (.inl hnone)
    rw [if_neg hno, hrecords]
    split
    · rename_i hlimit
      refine ⟨by simp, ?_, fun _ => rfl, fun _ => ⟨[], rfl, .inl rfl⟩, fun hlast => ?_⟩
      · simp only
        rw [eq_comm, decide_eq_true_eq]
        exact .inr hlimit
      · cases hlast
    · rename_i hlimit
      have hunsettled : ¬ Settled s.promptLines
          (records ++ [⟨records.length + 1, line, offset⟩]) := by
        rintro (hnone | hmany)
        · rw [hanchors] at hnone
          cases hnone
        · exact hlimit hmany
      refine ⟨by simp, ?_, fun hyes => absurd hyes hno, fun hyes => absurd hyes hno, fun _ => rfl⟩
      simp only
      rw [hfalse, eq_comm, decide_eq_false_iff_not]
      exact hunsettled

theorem acceptLines (h : Kept env earlier records s) (offset : ℕ) (raws : List Bytes) :
    Kept env earlier (records ++ recordsFrom (records.length + 1) offset raws)
      (TailScanner.acceptLines env s offset raws) := by
  induction raws generalizing s records offset with
  | nil =>
    rw [recordsFrom, List.append_nil]
    exact h
  | cons raw raws ih =>
    have hrest := ih (h.acceptCompletedLine (completedLine raw) (offset + raw.length + 1))
      (offset + raw.length + 1)
    rw [List.length_append, List.append_assoc] at hrest
    exact hrest

end Kept

/-! ### What a scanner is for -/

/-- The prompt and the dispatch of a scanner. -/
def TailScanner.setting (s : TailScanner) : List Line × Line := (s.promptLines, s.expectedDispatchId)

theorem acceptCompletedLine_setting (s : TailScanner × Found) (line : Line) (offset : ℕ) :
    (TailScanner.acceptCompletedLine env s line offset).1.setting = s.1.setting ∧
      (TailScanner.acceptCompletedLine env s line offset).1.acceptedBytes = s.1.acceptedBytes := by
  unfold TailScanner.acceptCompletedLine TailScanner.setting
  simp only
  split
  · exact ⟨rfl, rfl⟩
  · split <;> exact ⟨rfl, rfl⟩

theorem acceptLines_setting (s : TailScanner × Found) (offset : ℕ) (raws : List Bytes) :
    (TailScanner.acceptLines env s offset raws).1.setting = s.1.setting ∧
      (TailScanner.acceptLines env s offset raws).1.acceptedBytes = s.1.acceptedBytes := by
  induction raws generalizing s offset with
  | nil => exact ⟨rfl, rfl⟩
  | cons raw raws ih =>
    have hone := @acceptCompletedLine_setting env s (completedLine raw) (offset + raw.length + 1)
    have hrest := ih (TailScanner.acceptCompletedLine env s (completedLine raw)
      (offset + raw.length + 1)) (offset + raw.length + 1)
    exact ⟨hrest.1.trans hone.1, hrest.2.trans hone.2⟩

theorem readChunk_setting (s : (TailScanner × Found) × ℕ) (chunk : Bytes) :
    (TailScanner.readChunk env s chunk).1.1.setting = s.1.1.setting :=
  (acceptLines_setting s.1 _ _).1

/-- **The scanner has read this much of the log.** -/
structure Fed (env : Lookups) (earlier : Found) (content : Bytes) (s : TailScanner × Found) :
    Prop where
  kept : Kept env earlier (completedRecords content) s
  unfinished : s.1.unfinished = unfinishedOf content
  acceptedBytes : s.1.acceptedBytes = sizeOf (rawLines content)

namespace Fed

variable {earlier : Found} {content : Bytes} {s : TailScanner × Found}

theorem reset (s : TailScanner) (earlier : Found) :
    Fed env earlier [] (s.resetContentState, []) where
  kept := {
    nextLineNo := rfl
    stable := by
      have hnone : ¬ TailScanner.promptRecordLimit s.promptLines ≤
          (completedRecords []).length := by
        show ¬ promptEchoAnchorSearchLines + _ ≤ 0
        unfold promptEchoAnchorSearchLines
        omega
      unfold TailScanner.resetContentState Settled
      simp [hnone]
    state := fun _ => rfl
    found := fun _ => ⟨[], rfl, .inl rfl⟩
    records := fun _ => rfl }
  unfinished := rfl
  acceptedBytes := rfl

theorem feedBytes (h : Fed env earlier content s) (chunk : Bytes) :
    Fed env earlier (content ++ chunk) (TailScanner.feedBytes env s chunk) := by
  obtain ⟨hraw, hrest⟩ := rawLines_append content chunk
  have hkept := h.kept.acceptLines s.1.acceptedBytes
    (newlineBreaks.split (s.1.unfinished ++ chunk)).ended
  have hbytes := (@acceptLines_setting env s s.1.acceptedBytes
    (newlineBreaks.split (s.1.unfinished ++ chunk)).ended).2
  have hrecords : completedRecords (content ++ chunk) =
      completedRecords content ++ recordsFrom ((completedRecords content).length + 1)
        s.1.acceptedBytes (newlineBreaks.split (s.1.unfinished ++ chunk)).ended := by
    show recordsFrom 1 0 (rawLines (content ++ chunk)) = _
    rw [hraw, recordsFrom_append, h.acceptedBytes, h.unfinished, Nat.zero_add, Nat.add_comm 1]
    unfold completedRecords
    rw [length_recordsFrom]
    rfl
  have hsize : (unfinishedOf content ++ chunk).length -
      (newlineBreaks.unterminated (unfinishedOf content ++ chunk)).length =
        sizeOf (rawLines (unfinishedOf content ++ chunk)) := by
    have hlength := length_content (unfinishedOf content ++ chunk)
    unfold unfinishedOf at hlength ⊢
    omega
  refine ⟨?_, ?_, ?_⟩
  · rw [hrecords]
    exact ⟨hkept.nextLineNo, hkept.stable, hkept.state, hkept.found, hkept.records⟩
  · show newlineBreaks.unterminated (s.1.unfinished ++ chunk) = _
    rw [h.unfinished, hrest]
    rfl
  · show (TailScanner.acceptLines env s _ _).1.acceptedBytes + _ = _
    rw [hbytes, h.acceptedBytes, h.unfinished, hsize, hraw, sizeOf_append]

theorem readChunks (chunks : List Bytes) (lines : ℕ) (h : Fed env earlier content s) :
    Fed env earlier (content ++ chunks.flatten)
        (chunks.foldl (TailScanner.readChunk env) (s, lines)).1 ∧
      (chunks.foldl (TailScanner.readChunk env) (s, lines)).1.1.setting = s.1.setting := by
  induction chunks generalizing content s lines with
  | nil =>
    rw [List.flatten_nil, List.append_nil]
    exact ⟨h, rfl⟩
  | cons chunk chunks ih =>
    have hfed := h.feedBytes chunk
    have hboundary : Fed env earlier (content ++ chunk)
        (TailScanner.readChunk env (s, lines) chunk).1 :=
      ⟨⟨hfed.kept.nextLineNo, hfed.kept.stable, hfed.kept.state, hfed.kept.found,
        hfed.kept.records⟩, hfed.unfinished, hfed.acceptedBytes⟩
    obtain ⟨hrest, hsetting⟩ := ih (TailScanner.readChunk env (s, lines) chunk).2 hboundary
    rw [List.flatten_cons, ← List.append_assoc, List.foldl_cons]
    exact ⟨hrest, hsetting.trans (readChunk_setting (s, lines) chunk)⟩

/-- **A preview** is the reading of the log, and has found what is not in the reading `earlier`. -/
theorem preview (h : Fed env earlier content s) :
    (TailScanner.preview env s.1 s.2).1 = (reading env s.1.promptLines content).1 ∧
      ∃ before, (reading env s.1.promptLines content).2 =
          before ++ (TailScanner.preview env s.1 s.2).2.1 ∧ (before = [] ∨ before = earlier) := by
  obtain ⟨s, found⟩ := s
  have hlast : (if s.unfinished = [] then []
      else [⟨s.nextLineNo, decodeReplace s.unfinished, s.acceptedBytes + s.unfinished.length⟩]) =
        lastRecord content := by
    have hlength := length_content content
    have hline := h.kept.nextLineNo
    have hunfinished := h.unfinished
    have hbytes := h.acceptedBytes
    simp only at hline hunfinished hbytes
    unfold lastRecord
    rw [hline, hunfinished, hbytes, hlength]
    unfold completedRecords
    rw [length_recordsFrom]
  unfold TailScanner.preview reading allRecords
  simp only [hlast]
  split
  · rename_i hstable
    have hsettled : Settled s.promptLines (completedRecords content) :=
      of_decide_eq_true (h.kept.stable.symm.trans hstable)
    have hstate := h.kept.state hstable
    obtain ⟨before, hbefore, hor⟩ := h.kept.found hstable
    simp only at hstate hbefore
    unfold lastRecord
    split
    · rw [List.append_nil]
      exact ⟨hstate, before, hbefore, hor⟩
    · rw [parsePromptRecords_concat_settled hsettled]
      refine ⟨?_, before, ?_, hor⟩
      · simp [MarkerState.accept, hstate]
      · simp [MarkerState.accept, hstate, hbefore]
  · rename_i hstable
    have hrecords := h.kept.records (Bool.eq_false_iff.mpr hstable)
    simp only at hrecords
    rw [hrecords]
    exact ⟨rfl, [], rfl, .inl rfl⟩

end Fed

/-! ### Fenced lines -/

/-- The lines of a log. -/
def linesOf (content : Bytes) : List Line := (allRecords content).map Record.line

/-- The fence after this many lines, the echoed ones left out. -/
def fenceBefore (promptLines lines : List Line) (count : ℕ) : Fence :=
  (lines.zipIdx.take count).foldl
    (fun fence l => if isEcho promptLines lines l.2 then fence else (fence.consumeBoundary l.1).2)
    Fence.closed

/-- **The line of this number is not fenced** in the log. -/
def Unfenced (promptLines : List Line) (content : Bytes) (lineNo : ℕ) : Prop :=
  (fenceBefore promptLines (linesOf content) (lineNo - 1)).inFence = false

theorem fenceBefore_append (lines more : List Line) {count : ℕ} (hcount : count ≤ lines.length) :
    fenceBefore promptLines (lines ++ more) count = fenceBefore promptLines lines count := by
  unfold fenceBefore
  have htake : (lines ++ more).zipIdx.take count = lines.zipIdx.take count := by
    rw [List.zipIdx_append, List.take_append_of_le_length (by simpa using hcount)]
  rw [htake]
  refine List.foldl_ext _ _ _ fun fence l hl => ?_
  have hindex : l.2 < lines.length := by
    have := List.snd_lt_of_mem_zipIdx (List.mem_of_mem_take hl)
    omega
  rw [isEcho_append more hindex]

theorem fenceBefore_concat (lines : List Line) (line : Line) :
    fenceBefore promptLines (lines ++ [line]) (lines.length + 1) =
      if isEcho promptLines (lines ++ [line]) lines.length then
        fenceBefore promptLines lines lines.length
      else ((fenceBefore promptLines lines lines.length).consumeBoundary line).2 := by
  have hbefore := @fenceBefore_append promptLines lines [line] lines.length (Nat.le_refl _)
  have hall : (lines ++ [line]).zipIdx.take (lines.length + 1) = (lines ++ [line]).zipIdx :=
    List.take_of_length_le (by simp)
  have hsplit : (lines ++ [line]).zipIdx =
      (lines ++ [line]).zipIdx.take lines.length ++ [(line, lines.length)] := by
    simp [List.zipIdx_append]
  conv_lhs => unfold fenceBefore
  rw [hall, hsplit, List.foldl_append, List.foldl_cons, List.foldl_nil, ← hbefore]
  rfl

theorem consumeBoundary_false {fence fence' : Fence} {line : Line}
    (h : fence.consumeBoundary line = (false, fence')) : fence' = fence := by
  unfold Fence.consumeBoundary at h
  split at h
  · cases h; rfl
  · split at h
    · cases h
    · split at h <;> cases h
      rfl

theorem consumeCandidate_markers (s : MarkerState) (r : Record) (inFence : Bool) :
    (s.consumeCandidate env r inFence).fence = s.fence ∧
      (s.consumeCandidate env r inFence).allMarkers = s.allMarkers ∧
      (s.consumeCandidate env r inFence).outsideMarkers = s.outsideMarkers := by
  unfold MarkerState.consumeCandidate
  simp only
  split <;> exact ⟨rfl, rfl, rfl⟩

theorem lineMarker_line {r : Record} {marker : Marker}
    (h : MarkerState.lineMarker r = some marker) : marker.line = r.lineNo := by
  have hsignoff : ∀ stripped, completionSignoffMarker stripped r.lineNo = some marker →
      marker.line = r.lineNo := by
    intro stripped hmarker
    unfold completionSignoffMarker at hmarker
    split at hmarker
    · cases hmarker; rfl
    · cases hmarker
  unfold MarkerState.lineMarker at h
  simp only at h
  split at h
  · split at h
    · exact hsignoff _ h
    · cases h; rfl
  · exact hsignoff _ h

theorem mem_recent {markers : List Marker} {marker : Marker} (h : marker ∈ recent markers) :
    marker ∈ markers := List.mem_of_mem_drop h

/-- What a line leaves: the fence after it, and the markers with its own at the end. -/
structure Leaves (s : MarkerState) (r : Record) (s' : MarkerState)
    (marker : Option (Marker × Bool)) : Prop where
  fence : s'.fence = (s.fence.consumeBoundary r.line).2
  line : ∀ f ∈ marker, f.1.line = r.lineNo ∧ f.2 = s.fence.inFence
  allMarkers : ∀ m ∈ s'.allMarkers, m ∈ s.allMarkers ∨ ∃ f ∈ marker, f.1 = m
  outsideMarkers : ∀ m ∈ s'.outsideMarkers, m ∈ s.outsideMarkers ∨ (m, false) ∈ marker

theorem consume_leaves (s : MarkerState) (r : Record) :
    Leaves s r (s.consume env r).1 (s.consume env r).2 := by
  unfold MarkerState.consume
  rcases hboundary : s.fence.consumeBoundary r.line with ⟨boundary, fence⟩
  obtain ⟨hfence, hall, hout⟩ := @consumeCandidate_markers env { s with fence := fence } r
    (s.fence.inFence || fence.inFence)
  have hsame : ∀ inFence, Leaves s r ({ s with fence := fence }.consumeCandidate env r inFence)
      none := by
    intro inFence
    obtain ⟨hfence, hall, hout⟩ := @consumeCandidate_markers env { s with fence := fence } r inFence
    refine ⟨by rw [hfence, hboundary], ?_, fun m hm => .inl ?_, fun m hm => .inl ?_⟩
    · rintro f ⟨⟩
    · rwa [hall] at hm
    · rwa [hout] at hm
  simp only
  cases boundary with
  | true => exact hsame _
  | false =>
    have hopen : fence = s.fence := consumeBoundary_false hboundary
    rw [if_neg Bool.false_ne_true]
    cases hmarker : MarkerState.lineMarker r with
    | none => exact hsame _
    | some marker =>
      refine ⟨by rw [hboundary]; exact hfence, ?_, ?_, ?_⟩
      · rintro f hf
        cases hf
        exact ⟨lineMarker_line hmarker, by rw [hopen, Bool.or_self]⟩
      · intro m hm
        rcases List.mem_append.mp (mem_recent hm) with hold | hnew
        · exact .inl (by rwa [hall] at hold)
        · exact .inr ⟨_, rfl, (List.mem_singleton.mp hnew).symm⟩
      · intro m hm
        simp only at hm
        split at hm
        · exact .inl (by rwa [hout] at hm)
        · rename_i hno
          rcases List.mem_append.mp (mem_recent hm) with hold | hnew
          · exact .inl (by rwa [hout] at hold)
          · refine .inr ?_
            rw [List.mem_singleton.mp hnew, Bool.eq_false_iff.mpr hno]
            rfl

/-- The records have the numbers 1, 2, …. -/
def Numbered (records : List Record) : Prop :=
  ∀ index (h : index < records.length), (records.get ⟨index, h⟩).lineNo = index + 1

/-- **What a reading has**: the fence after the lines, and each marker with its fence. -/
structure Read (promptLines : List Line) (records : List Record) (s : MarkerState × Found) :
    Prop where
  fence : s.1.fence = fenceBefore promptLines (records.map Record.line) records.length
  found : ∀ f ∈ s.2, 1 ≤ f.1.line ∧ f.1.line ≤ records.length ∧
    f.2 = (fenceBefore promptLines (records.map Record.line) (f.1.line - 1)).inFence
  allMarkers : ∀ m ∈ s.1.allMarkers, ∃ inFence, (m, inFence) ∈ s.2
  outsideMarkers : ∀ m ∈ s.1.outsideMarkers, (m, false) ∈ s.2

theorem parsePromptRecords_read (hnumbered : Numbered records) :
    Read promptLines records (TailScanner.parsePromptRecords env promptLines records) := by
  induction records using List.reverseRecOn with
  | nil =>
    exact ⟨rfl, nofun, nofun,
      nofun⟩
  | append_singleton records r ih =>
    have hprior : Numbered records := by
      intro index h
      have := hnumbered index (by simp; omega)
      simpa [List.getElem_append_left h] using this
    have hline : r.lineNo = records.length + 1 := by
      have := hnumbered records.length (by simp)
      simpa using this
    have hread := ih hprior
    rw [parsePromptRecords_concat]
    generalize TailScanner.parsePromptRecords env promptLines records = s at hread ⊢
    have hlines : (records ++ [r]).map Record.line = records.map Record.line ++ [r.line] := by
      simp
    have hfence := @fenceBefore_concat promptLines (records.map Record.line) r.line
    rw [List.length_map] at hfence
    have hold : ∀ f ∈ s.2, 1 ≤ f.1.line ∧ f.1.line ≤ (records ++ [r]).length ∧
        f.2 = (fenceBefore promptLines ((records ++ [r]).map Record.line)
          (f.1.line - 1)).inFence := by
      intro f hf
      obtain ⟨hpos, hle, heq⟩ := hread.found f hf
      refine ⟨hpos, by simp; omega, ?_⟩
      rw [hlines, fenceBefore_append _ _ (by simp; omega)]
      exact heq
    unfold MarkerState.accept
    rw [hlines]
    split
    · rename_i hecho
      refine ⟨?_, ?_, hread.allMarkers, hread.outsideMarkers⟩
      · rw [hlines, List.length_append, List.length_singleton, hfence, if_pos hecho]
        exact hread.fence
      · exact hold
    · rename_i hecho
      have hleaves := @consume_leaves env s.1 r
      generalize s.1.consume env r = after at hleaves ⊢
      obtain ⟨state, marker⟩ := after
      have hmarker : ∀ f ∈ marker.toList, f ∈ marker := fun f hf => Option.mem_toList.mp hf
      refine ⟨?_, ?_, ?_, ?_⟩
      · rw [hlines, List.length_append, List.length_singleton, hfence, if_neg hecho,
          ← hread.fence]
        exact hleaves.fence
      · intro f hf
        rcases List.mem_append.mp hf with hf | hf
        · exact hold f hf
        · obtain ⟨hno, hin⟩ := hleaves.line f (hmarker f hf)
          refine ⟨by omega, by simp; omega, ?_⟩
          rw [hlines, hno, hline, Nat.add_sub_cancel, fenceBefore_append _ _ (by simp), hin,
            hread.fence]
      · intro m hm
        rcases hleaves.allMarkers m hm with hm | ⟨f, hf, rfl⟩
        · obtain ⟨inFence, hmem⟩ := hread.allMarkers m hm
          exact ⟨inFence, List.mem_append_left _ hmem⟩
        · exact ⟨f.2, List.mem_append_right _ (Option.mem_toList.mpr hf)⟩
      · intro m hm
        rcases hleaves.outsideMarkers m hm with hm | hm
        · exact List.mem_append_left _ (hread.outsideMarkers m hm)
        · exact List.mem_append_right _ (Option.mem_toList.mpr hm)

/-! ### Polls -/

theorem numbered_allRecords (content : Bytes) : Numbered (allRecords content) := by
  have hfrom : ∀ (raws : List Bytes) (lineNo offset index : ℕ)
      (h : index < (recordsFrom lineNo offset raws).length),
      ((recordsFrom lineNo offset raws).get ⟨index, h⟩).lineNo = lineNo + index := by
    intro raws
    induction raws with
    | nil => intro lineNo offset index h; exact absurd h (Nat.not_lt_zero _)
    | cons raw raws ih =>
      intro lineNo offset index h
      cases index with
      | zero => rfl
      | succ index =>
        have hindex : index <
            (recordsFrom (lineNo + 1) (offset + raw.length + 1) raws).length := by
          simpa [recordsFrom] using h
        have := ih (lineNo + 1) (offset + raw.length + 1) index hindex
        simp only [recordsFrom, List.get_eq_getElem, List.getElem_cons_succ] at this ⊢
        omega
  intro index h
  unfold allRecords at h ⊢
  by_cases hcompleted : index < (completedRecords content).length
  · have := hfrom (rawLines content) 1 0 index hcompleted
    simp only [List.get_eq_getElem] at this ⊢
    rw [List.getElem_append_left hcompleted]
    unfold completedRecords
    omega
  · -- the last line
    simp only [List.get_eq_getElem]
    rw [List.getElem_append_right (Nat.le_of_not_lt hcompleted)]
    have hlength : (completedRecords content).length = (rawLines content).length :=
      length_recordsFrom _ _ _
    unfold lastRecord at h ⊢
    split at h
    · simp at h
      omega
    · rename_i hopen
      have hzero : index = (completedRecords content).length := by
        simp at h
        omega
      simp [hopen, hzero, hlength]

/-- **The scanner has polled this much of the log.** -/
structure Polled (env : Lookups) (content : Bytes) (s : TailScanner) : Prop where
  fed : Fed env (TailScanner.parsePromptRecords env s.promptLines (completedRecords content)).2
    content (s, [])
  offset : s.offset = content.length

/-- A scan gives the reading of the log. -/
structure Reads (env : Lookups) (s : TailScanner) (content : Bytes) (kimiOutput : Bool)
    (r : TailScanResult) : Prop where
  markers : r.markers = (reading env s.promptLines content).1.visibleMarkers
  terminal : r.terminal =
    (reading env s.promptLines content).1.terminal env kimiOutput s.expectedDispatchId
  size : r.size = content.length
  fenceUnbalanced : r.fenceUnbalanced = (reading env s.promptLines content).1.fence.inFence
  terminalObservedSize : r.terminalObservedSize =
    if r.terminal.isSome then
      (reading env s.promptLines content).1.lastCandidate.map Candidate.observedOffset
    else none
  /-- A marker that it reports is one of the reading. -/
  mailMarkers : ∀ m ∈ r.mailMarkers, ∃ inFence, (m, inFence) ∈ (reading env s.promptLines content).2

theorem flatten_chunksOf (size fuel : ℕ) (content : Bytes) (hsize : 0 < size)
    (hfuel : content.length ≤ fuel) : (chunksOf size fuel content).flatten = content := by
  induction fuel generalizing content with
  | zero =>
    rw [List.eq_nil_of_length_eq_zero (Nat.le_zero.mp hfuel)]
    rfl
  | succ fuel ih =>
    unfold chunksOf
    split
    · rename_i hnil
      rw [hnil]
      rfl
    · rename_i hne
      have hpos := List.length_pos_of_ne_nil hne
      rw [List.flatten_cons, ih _ (by rw [List.length_drop]; omega), List.take_append_drop]

variable {s : TailScanner}

/-- What is reported of a reading: the visible markers, and what was found that is not fenced or
survives an open fence. -/
theorem mem_mailMarkers {state : MarkerState} {found : Found}
    {size contentBytes validationBytes lines : ℕ} {reason : Option Resync} {kimiOutput : Bool}
    {m : Marker} :
    m ∈ (s.result env state found size contentBytes validationBytes lines reason
        kimiOutput).mailMarkers ↔
      m ∈ state.visibleMarkers ∨ ∃ inFence, (m, inFence) ∈ found ∧
        (inFence = false ∨ state.fence.inFence = true ∧ m.survivesUnbalancedFence = true) := by
  unfold TailScanner.result
  simp only [List.mem_eraseDups, List.mem_append, List.mem_map, List.mem_filter, Bool.or_eq_true,
    Bool.not_eq_true', Bool.and_eq_true, Prod.exists, exists_and_right, exists_eq_right]

variable {content : Bytes}

theorem Fed.of_eq {earlier : Found} {s s' : TailScanner} {found : Found}
    (h : Fed env earlier content (s, found)) (hprompt : s'.promptLines = s.promptLines)
    (hunfinished : s'.unfinished = s.unfinished) (hbytes : s'.acceptedBytes = s.acceptedBytes)
    (hline : s'.nextLineNo = s.nextLineNo) (hstable : s'.promptStable = s.promptStable)
    (hrecords : s'.promptRecords = s.promptRecords)
    (hstate : s.promptStable = true → s'.state = s.state) :
    Fed env earlier content (s', found) where
  kept := {
    nextLineNo := hline.trans h.kept.nextLineNo
    stable := by
      show s'.promptStable = decide (Settled s'.promptLines _)
      rw [hstable, hprompt]
      exact h.kept.stable
    state := by
      intro htrue
      have htrue' : s.promptStable = true := hstable ▸ htrue
      show s'.state = (TailScanner.parsePromptRecords env s'.promptLines _).1
      rw [hprompt, hstate htrue']
      exact h.kept.state htrue'
    found := by
      intro htrue
      show ∃ before, (TailScanner.parsePromptRecords env s'.promptLines _).2 = _ ∧ _
      rw [hprompt]
      exact h.kept.found (hstable ▸ htrue)
    records := fun hfalse => hrecords.trans (h.kept.records (hstable ▸ hfalse)) }
  unfinished := hunfinished.trans h.unfinished
  acceptedBytes := hbytes.trans h.acceptedBytes

theorem parsePromptRecords_mono (records more : List Record) {f : Marker × Bool}
    (hf : f ∈ (TailScanner.parsePromptRecords env promptLines records).2) :
    f ∈ (TailScanner.parsePromptRecords env promptLines (records ++ more)).2 := by
  induction more using List.reverseRecOn with
  | nil => rwa [List.append_nil]
  | append_singleton more r ih =>
    rw [← List.append_assoc, parsePromptRecords_concat]
    unfold MarkerState.accept
    split
    · exact ih
    · exact List.mem_append_left _ ih

theorem scan_begins (h : Polled env content s)
    (reason : Option Resync) (file : TailFile) {more : Bytes}
    (hfile : file.content = content ++ more) :
    (s.begin reason file).setting = s.setting ∧
      ∃ base, file.content = base ++ (s.begin reason file).appended file ∧
        Fed env (TailScanner.parsePromptRecords env s.promptLines (completedRecords content)).2 base
          (s.begin reason file, []) := by
  unfold TailScanner.begin TailScanner.appended
  cases reason with
  | some reason =>
    refine ⟨rfl, [], rfl, (Fed.reset s _).of_eq rfl rfl rfl rfl rfl rfl fun _ => rfl⟩
  | none =>
    refine ⟨rfl, content, ?_, h.fed.of_eq rfl rfl rfl rfl rfl rfl fun _ => rfl⟩
    show file.content = content ++ file.content.drop s.offset
    rw [h.offset, hfile, List.drop_left]

theorem scan_feeds (h : Polled env content s)
    (reason : Option Resync) (file : TailFile) {more : Bytes}
    (hfile : file.content = content ++ more) :
    let read := (s.begin reason file).readAppended env file
    Fed env (TailScanner.parsePromptRecords env s.promptLines (completedRecords content)).2
        file.content (read.1.1.finish env file, read.1.2) ∧
      (read.1.1.finish env file).setting = s.setting := by
  intro read
  obtain ⟨hsetting, base, hbase, hfed⟩ := scan_begins h reason file hfile
  obtain ⟨hread, hsetting'⟩ := hfed.readChunks (chunksOf tailScanChunkBytes
    ((s.begin reason file).appended file).length ((s.begin reason file).appended file)) 0
  rw [flatten_chunksOf _ _ _ (by decide) (Nat.le_refl _), ← hbase] at hread
  refine ⟨hread.of_eq rfl rfl rfl rfl rfl rfl fun hstable => ?_, hsetting'.trans hsetting⟩
  exact if_pos hstable

/-- **A scan** of a log that was appended to gives its reading, and reports each marker of it that
is not fenced and was not in the reading of the completed lines before. -/
theorem scan_reads (h : Polled env content s)
    (file : TailFile) {more : Bytes} (hfile : file.content = content ++ more) (kimiOutput : Bool) :
    let after := s.scan env (some file) kimiOutput
    Reads env s file.content kimiOutput after.1 ∧ Polled env file.content after.2 ∧
      after.2.setting = s.setting ∧
      ∀ m, (m, false) ∈ (reading env s.promptLines file.content).2 → m ∈ after.1.mailMarkers ∨
        (m, false) ∈
          (TailScanner.parsePromptRecords env s.promptLines (completedRecords content)).2 := by
  intro after
  obtain ⟨hfed, hsetting⟩ := scan_feeds h (s.resync file).1 file hfile
  set begun := s.begin (s.resync file).1 file with hbegun
  set read := begun.readAppended env file with hread
  have hprompt : (read.1.1.finish env file).promptLines = s.promptLines :=
    congrArg Prod.fst hsetting
  have hexpected : (read.1.1.finish env file).expectedDispatchId = s.expectedDispatchId :=
    congrArg Prod.snd hsetting
  obtain ⟨hstate, before, hfound, hor⟩ := hfed.preview
  simp only at hstate hfound
  rw [hprompt] at hstate hfound
  set shown := (read.1.1.finish env file).preview env read.1.2 with hshown
  have hafter : after = ((read.1.1.finish env file).result env shown.1 shown.2.1
      (read.1.1.finish env file).offset (begun.appended file).length (s.resync file).2
      (read.2 + shown.2.2) (s.resync file).1 kimiOutput, read.1.1.finish env file) := rfl
  have hwhole : Read s.promptLines (allRecords file.content)
      (reading env s.promptLines file.content) :=
    parsePromptRecords_read (numbered_allRecords file.content)
  rw [hafter]
  refine ⟨⟨?_, ?_, rfl, ?_, ?_, ?_⟩, ⟨?_, rfl⟩, hsetting, ?_⟩
  · show shown.1.visibleMarkers = _
    rw [hstate]
  · show shown.1.terminal env kimiOutput (read.1.1.finish env file).expectedDispatchId = _
    rw [hstate, hexpected]
  · show shown.1.fence.inFence = _
    rw [hstate]
  · show (if (shown.1.terminal env kimiOutput _).isSome then _ else none) = _
    rw [hstate]
    rfl
  · intro m hm
    rcases mem_mailMarkers.mp hm with hvisible | ⟨inFence, hmem, -⟩
    · rw [hstate] at hvisible
      unfold MarkerState.visibleMarkers at hvisible
      split at hvisible
      · exact hwhole.allMarkers m (List.mem_of_mem_filter hvisible)
      · exact ⟨false, hwhole.outsideMarkers m hvisible⟩
    · refine ⟨inFence, ?_⟩
      rw [hfound]
      exact List.mem_append_right _ hmem
  · -- the next scan begins with nothing found
    rw [hprompt]
    refine ⟨⟨hfed.kept.nextLineNo, hfed.kept.stable, hfed.kept.state, fun _ => ?_,
      hfed.kept.records⟩, hfed.unfinished, hfed.acceptedBytes⟩
    simp only
    rw [hprompt]
    exact ⟨_, (List.append_nil _).symm, .inr rfl⟩
  · intro m hm
    rw [hfound] at hm
    rcases List.mem_append.mp hm with hbefore | hnew
    · rcases hor with rfl | rfl
      · cases hbefore
      · exact .inr hbefore
    · exact .inl (mem_mailMarkers.mpr (.inr ⟨false, hnew, .inl rfl⟩))

/-- The results of the polls of a log: each has a time of modification, and the bytes that were
appended. -/
def pollResults (env : Lookups) (identity : ℕ × ℕ) (kimiOutput : Bool) :
    TailScanner → Bytes → List (ℕ × Bytes) → List TailScanResult
  | _, _, [] => []
  | s, content, (mtimeNs, more) :: polls =>
    let after := s.scan env (some ⟨identity, mtimeNs, content ++ more⟩) kimiOutput
    after.1 :: pollResults env identity kimiOutput after.2 (content ++ more) polls

theorem polled_fresh (promptLines : List Line) (expectedDispatchId : Line) :
    Polled env [] (TailScanner.fresh promptLines expectedDispatchId) where
  fed := (Fed.reset (TailScanner.fresh promptLines expectedDispatchId) _).of_eq rfl rfl rfl rfl rfl
    rfl fun _ => rfl
  offset := rfl

/-- **Polls.**  The last result gives the reading of the log, and each marker of the reading that
is not fenced is reported by one of them, or was in the reading of the completed lines before. -/
theorem pollResults_reads (identity : ℕ × ℕ) (kimiOutput : Bool) (polls : List (ℕ × Bytes)) (h : Polled env content s) :
    (∀ last ∈ (pollResults env identity kimiOutput s content polls).getLast?,
      Reads env s (content ++ (polls.map Prod.snd).flatten) kimiOutput last) ∧
    (polls ≠ [] →
      ∀ m, (m, false) ∈ (reading env s.promptLines (content ++ (polls.map Prod.snd).flatten)).2 →
        (∃ r ∈ pollResults env identity kimiOutput s content polls, m ∈ r.mailMarkers) ∨
        (m, false) ∈
          (TailScanner.parsePromptRecords env s.promptLines (completedRecords content)).2) := by
  induction polls generalizing s content with
  | nil =>
    refine ⟨?_, fun hne => absurd rfl hne⟩
    rintro last ⟨⟩
  | cons poll polls ih =>
    obtain ⟨mtimeNs, more⟩ := poll
    obtain ⟨hreads, hpolled, hsetting, hreports⟩ :=
      scan_reads h ⟨identity, mtimeNs, content ++ more⟩ rfl kimiOutput
    simp only at hreads hpolled hsetting hreports
    rw [pollResults, List.map_cons, List.flatten_cons, ← List.append_assoc]
    set after := s.scan env (some ⟨identity, mtimeNs, content ++ more⟩) kimiOutput with hafter
    have hprompt : after.2.promptLines = s.promptLines := congrArg Prod.fst hsetting
    have hexpected : after.2.expectedDispatchId = s.expectedDispatchId :=
      congrArg Prod.snd hsetting
    obtain ⟨hlast, hrest⟩ := ih hpolled
    by_cases hpolls : polls = []
    · subst hpolls
      simp only [List.map_nil, List.flatten_nil, List.append_nil, pollResults]
      refine ⟨fun last hmem => ?_, fun _ m hm => ?_⟩
      · cases hmem
        exact hreads
      · exact (hreports m hm).imp (fun hmail => ⟨after.1, List.mem_singleton_self _, hmail⟩) id
    · refine ⟨fun last hmem => ?_, fun _ m hm => ?_⟩
      · have hne : pollResults env identity kimiOutput after.2 (content ++ more) polls ≠ [] := by
          cases polls with
          | nil => exact absurd rfl hpolls
          | cons poll polls => exact List.cons_ne_nil _ _
        rw [List.getLast?_cons_of_ne_nil hne] at hmem
        obtain ⟨hmarkers, hterminal, hsize, hfence, hobserved, hmail⟩ := hlast last hmem
        rw [hprompt] at hmarkers hterminal hfence hobserved hmail
        rw [hexpected] at hterminal
        exact ⟨hmarkers, hterminal, hsize, hfence, hobserved, hmail⟩
      · rcases hrest hpolls m (by rw [hprompt]; exact hm) with ⟨r, hr, hmail⟩ | hbefore
        · exact .inl ⟨r, List.mem_cons_of_mem _ hr, hmail⟩
        · rw [hprompt] at hbefore
          have hread : (m, false) ∈ (reading env s.promptLines (content ++ more)).2 :=
            parsePromptRecords_mono _ _ hbefore
          exact (hreports m hread).imp (fun hmail => ⟨after.1, List.mem_cons_self, hmail⟩) id

/-- **Incremental tail scanning is scanning once.**  However a log is cut into polls, the last
result has what one scan of the whole log has, and each marker of that scan's mail markers whose
line is not fenced is reported by one of the polls. -/
theorem incremental_scan_eq_once (env : Lookups) (promptLines : List Line)
    (expectedDispatchId : Line) (kimiOutput : Bool) (identity : ℕ × ℕ) (mtimeNs : ℕ)
    (polls : List (ℕ × Bytes)) :
    let fresh := TailScanner.fresh promptLines expectedDispatchId
    let content := (polls.map Prod.snd).flatten
    let once := (fresh.scan env (some ⟨identity, mtimeNs, content⟩) kimiOutput).1
    let results := pollResults env identity kimiOutput fresh [] polls
    (∀ last ∈ results.getLast?, last.markers = once.markers ∧ last.terminal = once.terminal ∧
      last.terminalObservedSize = once.terminalObservedSize ∧ last.size = once.size ∧
      last.fenceUnbalanced = once.fenceUnbalanced) ∧
    ∀ m ∈ once.mailMarkers, Unfenced promptLines content m.line →
      ∃ r ∈ results, m ∈ r.mailMarkers := by
  intro fresh content once results
  have hfresh : Polled env [] fresh := polled_fresh promptLines expectedDispatchId
  obtain ⟨honce, -, -, -⟩ := scan_reads hfresh ⟨identity, mtimeNs, content⟩ rfl kimiOutput
  obtain ⟨hlast, hreports⟩ := pollResults_reads identity kimiOutput polls hfresh
  constructor
  · intro last hmem
    obtain ⟨hmarkers, hterminal, hsize, hfence, hobserved, -⟩ := hlast last hmem
    have hsame : last.terminal = once.terminal := hterminal.trans honce.terminal.symm
    refine ⟨hmarkers.trans honce.markers.symm, hsame, ?_, hsize.trans honce.size.symm,
      hfence.trans honce.fenceUnbalanced.symm⟩
    rw [hobserved, honce.terminalObservedSize, hsame]
    rfl
  · intro m hm hunfenced
    obtain ⟨inFence, hmem⟩ := honce.mailMarkers m hm
    have hread : Read promptLines (allRecords content) (reading env promptLines content) :=
      parsePromptRecords_read (numbered_allRecords content)
    have hfalse : inFence = false := (hread.found _ hmem).2.2.trans hunfenced
    subst hfalse
    by_cases hpolls : polls = []
    · -- an empty log has no markers
      subst hpolls
      cases hmem
    · exact (hreports hpolls m hmem).elim id nofun

end GoalFlight.Watch
