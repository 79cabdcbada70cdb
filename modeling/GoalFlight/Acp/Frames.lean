import GoalFlight.Library.Join
import Mathlib.Data.List.Basic

/-!
# ACP: frames that are too long

`GuardedStreamReader` reads the lines of an agent.  A line over the limit is drained and recorded,
and the next one is read; past the drain cap the agent is killed, and the rest of the stream is
drained.  `received_guarded` says which lines are received and what is recorded, however the stream
arrives.

A line is without its newline here.  What a record says of a line besides its bytes, and the error
that is sent for a request, are outside.
-/

namespace GoalFlight.Acp

/-! ### The stream -/

/-- `b"\n"`. -/
def newline : UInt8 := 10

/-- `asyncio.StreamReader`: what has arrived, and what arrives by the next look, and by the one
after it, up to the end of the stream. -/
structure StreamReader where
  buffer : List UInt8
  arriving : List (List UInt8)

/-- What `readuntil` returns, or raises. -/
inductive ReadUntil
  | line (data : List UInt8)
  | overrun (consumed : ℕ)
  | incomplete (rest : List UInt8)
deriving DecidableEq

namespace StreamReader

/-- What is still to be read. -/
def content (r : StreamReader) : List UInt8 := r.buffer ++ r.arriving.flatten

/-- The reader when the next call looks. -/
def woken (r : StreamReader) : StreamReader :=
  ⟨r.buffer ++ r.arriving.headD [], r.arriving.tail⟩

/-- `readuntil`, from a look on. -/
def readuntilFrom (limit : ℕ) (buffer : List UInt8) (arriving : List (List UInt8)) :
    ReadUntil × StreamReader :=
  let separator := buffer.idxOf newline
  if separator < buffer.length then
    if limit < separator then (.overrun separator, ⟨buffer, arriving⟩)
    else (.line (buffer.take (separator + 1)), ⟨buffer.drop (separator + 1), arriving⟩)
  else if limit < buffer.length then (.overrun buffer.length, ⟨buffer, arriving⟩)
  else match arriving with
    | [] => (.incomplete buffer, ⟨[], []⟩)
    | chunk :: arriving => readuntilFrom limit (buffer ++ chunk) arriving

/-- `readuntil(b"\n")`. -/
def readuntil (limit : ℕ) (r : StreamReader) : ReadUntil × StreamReader :=
  readuntilFrom limit r.woken.buffer r.woken.arriving

/-- `readexactly`, from a look on: what there is at the end of the stream. -/
def readexactlyFrom (n : ℕ) (buffer : List UInt8) (arriving : List (List UInt8)) :
    List UInt8 × StreamReader :=
  if n ≤ buffer.length then (buffer.take n, ⟨buffer.drop n, arriving⟩)
  else match arriving with
    | [] => (buffer, ⟨[], []⟩)
    | chunk :: arriving => readexactlyFrom n (buffer ++ chunk) arriving

/-- `readexactly`. -/
def readexactly (n : ℕ) (r : StreamReader) : List UInt8 × StreamReader :=
  readexactlyFrom n r.woken.buffer r.woken.arriving

end StreamReader

/-! ### The drain -/

/-- The record of a line that was dropped. -/
structure DropRecord where
  byteCount : ℕ
  drainCapExceeded : Bool
deriving DecidableEq

/-- The variables of `_drop_oversized_frame`. -/
structure Drain where
  reader : StreamReader
  totalDrained : ℕ
  drainCapExceeded : Bool
  dropRecord : Option DropRecord

namespace Drain

variable (limit drainCap : ℕ) (d : Drain)

/-- `record_drop`. -/
def recordDrop : Drain :=
  if d.dropRecord.isSome then d
  else { d with dropRecord := some ⟨d.totalDrained, d.drainCapExceeded⟩ }

/-- `note_pathological_once`, where the cap is exceeded. -/
def notePathological : Drain :=
  if drainCap < d.totalDrained ∧ !d.drainCapExceeded then
    { d with drainCapExceeded := true }.recordDrop
  else d

/-- `drain_exactly_bounded`. -/
def drainExactlyBounded (count : ℕ) : Drain :=
  let readCount := min (max 1 count) (max 1 (drainCap - d.totalDrained + 1))
  let (data, reader) := d.reader.readexactly readCount
  { d with reader, totalDrained := d.totalDrained + data.length }

/-- The loop of `_drop_oversized_frame`.  Past the cap it reads to the end of the stream. -/
def loop : ℕ → Drain → Option Drain
  | 0, _ => none
  | fuel + 1, d =>
    if d.drainCapExceeded then
      some { d with
        reader := ⟨[], []⟩, totalDrained := d.totalDrained + d.reader.content.length }
    else
      match d.reader.readuntil limit with
      | (.line tail, reader) =>
        let d := { d with reader, totalDrained := d.totalDrained + tail.length }
        if drainCap < d.totalDrained then loop fuel (d.notePathological drainCap) else some d
      | (.overrun consumed, reader) =>
        let d := { d with reader }.drainExactlyBounded drainCap (max 1 consumed)
        loop fuel (d.notePathological drainCap)
      | (.incomplete rest, reader) =>
        some { d with reader, totalDrained := d.totalDrained + rest.length }

/-- The record and the reader at the end. -/
def finish : Option DropRecord × StreamReader :=
  (d.recordDrop.dropRecord.map ({ · with byteCount := d.totalDrained }), d.reader)

end Drain

variable (limit drainCap : ℕ)

/-- **`_drop_oversized_frame`**: the record, and the reader behind it. -/
def dropOversizedFrame (consumed : ℕ) (r : StreamReader) :
    Option (Option DropRecord × StreamReader) :=
  let d := (Drain.drainExactlyBounded drainCap ⟨r, 0, false, none⟩ (max 1 consumed))
  (Drain.loop limit drainCap (r.content.length + 1) (d.notePathological drainCap)).map Drain.finish

/-- What the calls of a reader return, the records of what it dropped, and the rest that the last
call raises at the end of the stream. -/
structure Received where
  lines : List (List UInt8)
  records : List DropRecord
  rest : List UInt8
deriving DecidableEq

/-- **`readuntil`** of a `GuardedStreamReader`, called again for as long as it returns a line. -/
def received : ℕ → StreamReader → Option Received
  | 0, _ => none
  | fuel + 1, r =>
    match r.readuntil limit with
    | (.line line, r) => (received fuel r).map fun more => { more with lines := line :: more.lines }
    | (.overrun consumed, r) => do
      let (record, r) ← dropOversizedFrame limit drainCap consumed r
      let more ← received fuel r
      some { more with records := record.toList ++ more.records }
    | (.incomplete rest, _) => some ⟨[], [], rest⟩

/-! ### What is to be received -/

/-- The text of lines and of what stands behind the last newline. -/
def textOf (lines : List (List UInt8)) (tail : List UInt8) : List UInt8 :=
  lines.foldr (fun line text => line ++ newline :: text) tail

/-- The line is dropped, and takes more than the drain cap. -/
def Exceeds (line : List UInt8) : Bool := limit < line.length && drainCap < line.length + 1

/-- **Exactly the lines within the limit** are received, up to the first that exceeds the drain cap,
and each that is dropped before it is recorded once, with its bytes.  The record of the line that
exceeds the cap has the bytes up to the end of the stream. -/
structure Received.Guarded (lines : List (List UInt8)) (tail : List UInt8) (x : Received) :
    Prop where
  returned : x.lines = ((lines.takeWhile (!Exceeds limit drainCap ·)).filter
    (·.length ≤ limit)).map (· ++ [newline])
  recorded : ∃ last, x.records = ((lines.takeWhile (!Exceeds limit drainCap ·)).filter
      (limit < ·.length)).map (fun line => ⟨line.length + 1, false⟩) ++ last ∧
    match lines.dropWhile (!Exceeds limit drainCap ·) with
    | [] => if limit < tail.length then last.map DropRecord.byteCount = [tail.length] ∧ x.rest = []
      else last = [] ∧ x.rest = tail
    | behind => last = [⟨(textOf behind tail).length, true⟩] ∧ x.rest = []

/-! ### Reading -/

variable {limit drainCap : ℕ} {r : StreamReader}

namespace StreamReader

/-- What a call of `readuntil` makes of the bytes that are still to be read. -/
inductive Reads (limit : ℕ) (content : List UInt8) : ReadUntil × StreamReader → Prop
  | line (line : List UInt8) (r : StreamReader) : newline ∉ line → line.length ≤ limit →
      content = line ++ newline :: r.content → Reads limit content (.line (line ++ [newline]), r)
  | overrun (n : ℕ) (r : StreamReader) : limit < n → n ≤ r.buffer.length →
      newline ∉ r.buffer.take n → r.content = content → Reads limit content (.overrun n, r)
  | incomplete : newline ∉ content → content.length ≤ limit →
      Reads limit content (.incomplete content, ⟨[], []⟩)

theorem content_woken (r : StreamReader) : r.woken.content = r.content := by
  obtain ⟨buffer, _ | ⟨chunk, arriving⟩⟩ := r
  · simp [woken, content]
  · simp [woken, content]

/-- A look at a buffer that has a newline. -/
theorem readuntilFrom_newline {line behind : List UInt8} (hline : newline ∉ line)
    (arriving : List (List UInt8)) :
    readuntilFrom limit (line ++ newline :: behind) arriving =
      if limit < line.length then (.overrun line.length, ⟨line ++ newline :: behind, arriving⟩)
      else (.line (line ++ [newline]), ⟨behind, arriving⟩) := by
  have hindex : (line ++ newline :: behind).idxOf newline = line.length := by
    simp [List.idxOf_append, hline]
  have htake : (line ++ newline :: behind).take (line.length + 1) = line ++ [newline] := by
    rw [List.take_append, List.take_of_length_le (Nat.le_succ _)]
    simp
  have hdrop : (line ++ newline :: behind).drop (line.length + 1) = behind := by
    simp [List.drop_append]
  unfold readuntilFrom
  rw [hindex, if_pos (by simp), htake, hdrop]

theorem readuntilFrom_reads (limit : ℕ) (arriving : List (List UInt8)) : ∀ buffer,
    Reads limit (buffer ++ arriving.flatten) (readuntilFrom limit buffer arriving) := by
  have hnewline (buffer : List UInt8) (arriving : List (List UInt8)) (h : newline ∈ buffer) :
      Reads limit (buffer ++ arriving.flatten) (readuntilFrom limit buffer arriving) := by
    obtain ⟨line, behind, rfl, hline⟩ := List.eq_append_cons_of_mem h
    rw [readuntilFrom_newline hline]
    split
    · rename_i hlimit
      exact .overrun _ _ hlimit (by simp) (by simpa using hline) rfl
    · rename_i hlimit
      exact .line _ _ hline (Nat.not_lt.mp hlimit) (by simp [content])
  have hopen (buffer : List UInt8) (h : newline ∉ buffer) :
      ¬ buffer.idxOf newline < buffer.length :=
    fun hlt => h (List.idxOf_lt_length_iff.mp hlt)
  induction arriving with
  | nil =>
    intro buffer
    by_cases h : newline ∈ buffer
    · exact hnewline buffer [] h
    unfold readuntilFrom
    simp only [hopen buffer h, if_false]
    split
    · rename_i hlimit
      exact .overrun _ _ hlimit (Nat.le_refl _) (by simpa using h) rfl
    · rename_i hlimit
      rw [List.flatten_nil, List.append_nil]
      exact .incomplete h (Nat.not_lt.mp hlimit)
  | cons chunk arriving ih =>
    intro buffer
    by_cases h : newline ∈ buffer
    · exact hnewline buffer _ h
    unfold readuntilFrom
    simp only [hopen buffer h, if_false]
    split
    · rename_i hlimit
      exact .overrun _ _ hlimit (Nat.le_refl _) (by simpa using h) rfl
    · rw [List.flatten_cons, ← List.append_assoc]
      exact ih _

theorem readuntil_reads (limit : ℕ) (r : StreamReader) :
    Reads limit r.content (r.readuntil limit) := by
  rw [← content_woken]
  exact readuntilFrom_reads limit _ _

theorem readexactly_spec {n : ℕ} (h : n ≤ r.buffer.length) :
    (r.readexactly n).1.length = n ∧ (r.readexactly n).2.content = r.content.drop n := by
  have hwoken : n ≤ r.woken.buffer.length := by
    rw [woken, List.length_append]
    exact Nat.le_add_right_of_le h
  rw [← content_woken r]
  unfold readexactly readexactlyFrom
  rw [if_pos hwoken]
  exact ⟨List.length_take_of_le hwoken, (List.drop_append_of_le_length hwoken).symm⟩

end StreamReader

/-! ### Draining -/

namespace Drain

/-- A drain of bytes that stand before the next newline. -/
theorem drainExactlyBounded_spec {n : ℕ} (total : ℕ) (hn : 0 < n) (hle : n ≤ r.buffer.length) :
    ∃ k reader, 0 < k ∧ k ≤ n ∧ drainExactlyBounded drainCap ⟨r, total, false, none⟩ n =
        ⟨reader, total + k, false, none⟩ ∧
      reader.content = r.content.drop k := by
  have hcount : min (max 1 n) (max 1 (drainCap - total + 1)) ≤ r.buffer.length := by omega
  obtain ⟨hlength, hcontent⟩ := StreamReader.readexactly_spec hcount
  refine ⟨_, _, ?_, ?_, ?_, hcontent⟩
  · omega
  · omega
  · dsimp only [drainExactlyBounded]
    rw [hlength]

end Drain

/-- **What a drain makes of the bytes before it**, when it has drained `total` already: it ends
behind the line, or past the cap, or at the end of a stream without a newline. -/
inductive Drained (drainCap total : ℕ) (content : List UInt8) :
    Option (Option DropRecord × StreamReader) → Prop
  | line (line : List UInt8) (r : StreamReader) (byteCount : ℕ) : newline ∉ line →
      content = line ++ newline :: r.content → byteCount = total + line.length + 1 →
      byteCount ≤ drainCap → Drained drainCap total content (some (some ⟨byteCount, false⟩, r))
  | exceeded (line rest : List UInt8) (r : StreamReader) (byteCount : ℕ) : newline ∉ line →
      content = line ++ newline :: rest → drainCap < total + line.length + 1 → r.content = [] →
      byteCount = total + content.length →
      Drained drainCap total content (some (some ⟨byteCount, true⟩, r))
  | tail (exceeded : Bool) (r : StreamReader) (byteCount : ℕ) : newline ∉ content →
      r.content = [] → byteCount = total + content.length →
      Drained drainCap total content (some (some ⟨byteCount, exceeded⟩, r))

theorem Drained.before {total : ℕ} {data content : List UInt8}
    {x : Option (Option DropRecord × StreamReader)} (hdata : newline ∉ data)
    (h : Drained drainCap (total + data.length) content x) :
    Drained drainCap total (data ++ content) x := by
  cases h with
  | line line r byteCount hline hcontent hcount hcap =>
    refine .line (data ++ line) r _ (by simp [hdata, hline]) (by simp [hcontent]) ?_ hcap
    rw [List.length_append]
    omega
  | exceeded line rest r byteCount hline hcontent hcap hend hcount =>
    refine .exceeded (data ++ line) rest r _ (by simp [hdata, hline]) (by simp [hcontent]) ?_ hend
      ?_
    · rw [List.length_append]
      omega
    · rw [List.length_append]
      omega
  | tail exceeded r byteCount hcontent hend hcount =>
    refine .tail exceeded r _ (by simp [hdata, hcontent]) hend ?_
    rw [List.length_append]
    omega

namespace Drain

/-- Past the cap the rest of the stream is drained. -/
theorem loop_notePathological {fuel total : ℕ} (hcap : drainCap < total) :
    (loop limit drainCap (fuel + 1)
        (notePathological drainCap ⟨r, total, false, none⟩)).map finish =
      some (some ⟨total + r.content.length, true⟩, ⟨[], []⟩) := by
  have hnote : notePathological drainCap ⟨r, total, false, none⟩ =
      ⟨r, total, true, some ⟨total, true⟩⟩ := if_pos ⟨hcap, rfl⟩
  rw [hnote]
  rfl

/-- Bytes before the next newline are drained, and the loop goes on. -/
theorem drained_of_overrun {n fuel total : ℕ} (hn : 0 < n) (hle : n ≤ r.buffer.length)
    (hnewline : newline ∉ r.buffer.take n) (hfuel : r.content.length ≤ fuel)
    (hloop : ∀ r total, r.content.length < fuel →
      Drained drainCap total r.content
        ((loop limit drainCap fuel ⟨r, total, false, none⟩).map finish)) :
    Drained drainCap total r.content ((loop limit drainCap fuel (notePathological drainCap
      (drainExactlyBounded drainCap ⟨r, total, false, none⟩ n))).map finish) := by
  obtain ⟨k, reader, hk, hkn, heq, hcontent⟩ := drainExactlyBounded_spec total hn hle
  have htake : r.content.take k = (r.buffer.take n).take k := by
    rw [List.take_take, Nat.min_eq_left hkn, StreamReader.content,
      List.take_append_of_le_length (Nat.le_trans hkn hle)]
  have hdata : newline ∉ r.content.take k := fun h => by
    rw [htake] at h
    exact hnewline (List.mem_of_mem_take h)
  have hklength : (r.content.take k).length = k := by
    rw [List.length_take, StreamReader.content, List.length_append]
    omega
  have hsplit : r.content = r.content.take k ++ reader.content := by
    rw [hcontent, List.take_append_drop]
  have hless : reader.content.length < fuel := by
    have := congrArg List.length hsplit
    rw [List.length_append, hklength] at this
    omega
  rw [heq, hsplit]
  apply Drained.before hdata
  rw [hklength]
  by_cases hover : drainCap < total + k
  · obtain ⟨fuel, rfl⟩ := Nat.exists_eq_add_one_of_ne_zero (Nat.ne_zero_of_lt hless)
    rw [loop_notePathological hover]
    by_cases hmem : newline ∈ reader.content
    · obtain ⟨line, rest, hline, hnot⟩ := List.eq_append_cons_of_mem hmem
      exact .exceeded line rest _ _ hnot hline (by omega) rfl rfl
    · exact .tail true _ _ hmem rfl rfl
  · have hnote : notePathological drainCap ⟨reader, total + k, false, none⟩ =
        ⟨reader, total + k, false, none⟩ := if_neg fun h => hover h.1
    rw [hnote]
    exact hloop reader (total + k) hless

theorem loop_drained {fuel : ℕ} : ∀ r total, r.content.length < fuel →
    Drained drainCap total r.content
      ((loop limit drainCap fuel ⟨r, total, false, none⟩).map finish) := by
  induction fuel with
  | zero => nofun
  | succ fuel ih =>
    intro r total hfuel
    have hreads := r.readuntil_reads limit
    unfold loop
    rw [if_neg Bool.false_ne_true]
    generalize r.readuntil limit = read at hreads
    cases hreads with
    | line line reader hline _ hcontent =>
      have hlength := congrArg List.length hcontent
      simp only [List.length_append, List.length_cons] at hlength
      dsimp only
      rw [List.length_append, List.length_singleton]
      split
      · rename_i hover
        obtain ⟨fuel, rfl⟩ := Nat.exists_eq_add_one_of_ne_zero (show fuel ≠ 0 by omega)
        rw [loop_notePathological hover]
        exact .exceeded line _ _ _ hline hcontent (by omega) rfl (by omega)
      · rename_i hover
        exact .line line reader _ hline hcontent rfl (Nat.not_lt.mp hover)
    | overrun n reader hlimit hle hnewline hcontent =>
      rw [← hcontent] at hfuel ⊢
      dsimp only
      rw [Nat.max_eq_right (Nat.one_le_of_lt hlimit)]
      exact drained_of_overrun (Nat.zero_lt_of_lt hlimit) hle hnewline (Nat.le_of_lt_succ hfuel) ih
    | incomplete hcontent _ => exact .tail false _ _ hcontent rfl rfl

end Drain

/-- A line that is dropped is drained to its end, or with it the whole stream. -/
theorem dropOversizedFrame_drained (limit drainCap : ℕ) {n : ℕ} (hn : 0 < n)
    (hle : n ≤ r.buffer.length) (hnewline : newline ∉ r.buffer.take n) :
    Drained drainCap 0 r.content (dropOversizedFrame limit drainCap n r) := by
  unfold dropOversizedFrame
  rw [Nat.max_eq_right hn]
  exact Drain.drained_of_overrun hn hle hnewline (Nat.le_succ _) Drain.loop_drained

/-! ### What is received -/

variable {lines : List (List UInt8)} {line tail : List UInt8} {x : Received}

theorem Received.Guarded.read (h : x.Guarded limit drainCap lines tail)
    (hlimit : line.length ≤ limit) :
    Received.Guarded limit drainCap (line :: lines) tail
      { x with lines := (line ++ [newline]) :: x.lines } := by
  have hexceeds : Exceeds limit drainCap line = false := by
    simp [Exceeds, Nat.not_lt.mpr hlimit]
  obtain ⟨last, hrecords, hlast⟩ := h.recorded
  refine ⟨?_, last, ?_, ?_⟩
  · simp [hexceeds, hlimit, h.returned]
  · simp [hexceeds, Nat.not_lt.mpr hlimit, hrecords]
  · simpa [hexceeds] using hlast

theorem Received.Guarded.drop (h : x.Guarded limit drainCap lines tail)
    (hlimit : limit < line.length) (hcap : line.length + 1 ≤ drainCap) :
    Received.Guarded limit drainCap (line :: lines) tail
      { x with records := ⟨line.length + 1, false⟩ :: x.records } := by
  have hexceeds : Exceeds limit drainCap line = false := by
    simp [Exceeds, Nat.not_lt.mpr hcap]
  obtain ⟨last, hrecords, hlast⟩ := h.recorded
  refine ⟨?_, last, ?_, ?_⟩
  · simp [hexceeds, Nat.not_le.mpr hlimit, h.returned]
  · simp [hexceeds, hlimit, hrecords]
  · simpa [hexceeds] using hlast

theorem received_nil {fuel : ℕ} (h : r.content = []) (hfuel : 0 < fuel) :
    received limit drainCap fuel r = some ⟨[], [], []⟩ := by
  obtain ⟨fuel, rfl⟩ := Nat.exists_eq_add_one_of_ne_zero (Nat.ne_of_gt hfuel)
  have hreads := r.readuntil_reads limit
  unfold received
  rw [h] at hreads
  generalize r.readuntil limit = read at hreads
  cases hreads with
  | line line reader _ _ hcontent => simp at hcontent
  | overrun n reader hlimit hle _ hcontent =>
    have : reader.buffer = [] := (List.append_eq_nil_iff.mp hcontent).1
    simp only [this, List.length_nil] at hle
    omega
  | incomplete => rfl

/-- Bytes without a newline at the front are bytes of the first line. -/
theorem le_length_of_notMem {n : ℕ} {behind : List UInt8}
    (h : newline ∉ (line ++ newline :: behind).take n) : n ≤ line.length := by
  by_contra hlt
  obtain ⟨m, hm⟩ := Nat.exists_eq_add_of_lt (Nat.not_le.mp hlt)
  apply h
  rw [List.take_append, show n - line.length = m + 1 by omega, List.take_succ_cons]
  simp

/-- **Lines within the limit are received, and lines over it do not disturb them.**  Whatever
arrives when, the calls end. -/
theorem received_guarded (limit drainCap : ℕ) (lines : List (List UInt8)) (tail : List UInt8)
    (hlines : ∀ line ∈ lines, newline ∉ line) (htail : newline ∉ tail) (r : StreamReader)
    (hcontent : r.content = textOf lines tail) (fuel : ℕ) (hfuel : r.content.length < fuel) :
    ∃ x, received limit drainCap fuel r = some x ∧ x.Guarded limit drainCap lines tail := by
  induction lines generalizing r fuel with
  | nil =>
    obtain ⟨fuel, rfl⟩ := Nat.exists_eq_add_one_of_ne_zero (Nat.ne_of_gt (Nat.zero_lt_of_lt hfuel))
    have hreads := r.readuntil_reads limit
    unfold received
    generalize r.readuntil limit = read at hreads
    change r.content = tail at hcontent
    subst hcontent
    cases hreads with
    | line line reader _ _ heq => exact absurd (by simp [heq]) htail
    | overrun n reader hlimit hle hnewline heq =>
      have hdrained := dropOversizedFrame_drained limit drainCap (Nat.zero_lt_of_lt hlimit) hle
        hnewline
      have hlong : limit < reader.content.length :=
        Nat.lt_of_lt_of_le hlimit (Nat.le_trans hle (List.length_append ▸ Nat.le_add_right _ _))
      rw [← heq] at htail hfuel ⊢
      dsimp only
      generalize dropOversizedFrame limit drainCap n reader = dropped at hdrained
      cases hdrained with
      | line line _ _ _ heq => exact absurd (by simp [heq]) htail
      | exceeded line _ _ _ _ heq => exact absurd (by simp [heq]) htail
      | tail exceeded reader' byteCount _ hend hcount =>
        dsimp only [Option.bind_eq_bind, Option.bind_some]
        rw [received_nil hend (by omega)]
        refine ⟨_, rfl, rfl, [_], rfl, ?_⟩
        simp [hlong, hcount]
    | incomplete _ hlimit =>
      exact ⟨_, rfl, rfl, [], rfl, by simp [Nat.not_lt.mpr hlimit]⟩
  | cons line lines ih =>
    obtain ⟨hline, hlines⟩ := List.forall_mem_cons.mp hlines
    obtain ⟨fuel, rfl⟩ := Nat.exists_eq_add_one_of_ne_zero (Nat.ne_of_gt (Nat.zero_lt_of_lt hfuel))
    have hreads := r.readuntil_reads limit
    have htext : r.content = line ++ newline :: textOf lines tail := hcontent
    unfold received
    generalize r.readuntil limit = read at hreads
    cases hreads with
    | line line' reader hline' hlimit heq =>
      obtain ⟨rfl, hrest⟩ := Joined.append_cons_injective hline hline' (htext.symm.trans heq)
      have hlength := congrArg List.length heq
      simp only [List.length_append, List.length_cons] at hlength
      obtain ⟨x, hx, hguarded⟩ := ih hlines reader hrest.symm fuel (by omega)
      exact ⟨_, by dsimp only; rw [hx]; rfl, hguarded.read hlimit⟩
    | overrun n reader hlimit hle hnewline heq =>
      have hdrained := dropOversizedFrame_drained limit drainCap (Nat.zero_lt_of_lt hlimit) hle
        hnewline
      rw [← heq] at htext hfuel hcontent
      have hfront : newline ∉ reader.content.take n := by
        rwa [StreamReader.content, List.take_append_of_le_length hle]
      rw [htext] at hfront
      have hlong : limit < line.length := Nat.lt_of_lt_of_le hlimit (le_length_of_notMem hfront)
      have hlength := congrArg List.length htext
      simp only [List.length_append, List.length_cons] at hlength
      dsimp only
      generalize dropOversizedFrame limit drainCap n reader = dropped at hdrained
      cases hdrained with
      | line line' reader' byteCount hline' heq' hcount hcap =>
        obtain ⟨rfl, hrest⟩ := Joined.append_cons_injective hline hline' (htext.symm.trans heq')
        obtain ⟨x, hx, hguarded⟩ := ih hlines reader' hrest.symm fuel (by rw [← hrest]; omega)
        rw [Nat.zero_add] at hcount
        subst hcount
        exact ⟨_, by dsimp only [Option.bind_eq_bind, Option.bind_some]; rw [hx]; rfl,
          hguarded.drop hlong hcap⟩
      | exceeded line' rest reader' byteCount hline' heq' hcap hend hcount =>
        obtain ⟨rfl, -⟩ := Joined.append_cons_injective hline hline' (htext.symm.trans heq')
        have hexceeds : Exceeds limit drainCap line = true := by
          rw [Nat.zero_add] at hcap
          simp [Exceeds, hlong, hcap]
        dsimp only [Option.bind_eq_bind, Option.bind_some]
        rw [received_nil hend (by omega)]
        refine ⟨_, rfl, by simp [hexceeds], [⟨byteCount, true⟩], by simp [hexceeds], ?_⟩
        simp [hexceeds, hcount, hcontent]
      | tail _ _ _ hno => exact absurd (by simp [htext]) hno
    | incomplete hno => exact absurd (by simp [htext]) hno

/-! ### A short stream -/

/-- Nothing is over the limit, and the line arrives in two pieces. -/
theorem received_guarded_short :
    (received 4 8 9 ⟨[97], [[98, 10], [99]]⟩).map Received.lines = some [[97, 98, 10]] := by
  obtain ⟨x, hx, hguarded⟩ := received_guarded 4 8 [[97, 98]] [99] (by decide) (by decide)
    ⟨[97], [[98, 10], [99]]⟩ (by decide) 9 (by decide)
  rw [hx, Option.map_some, hguarded.returned]
  decide

/-- A line over the cap is recorded with the bytes behind it, and the line behind it, which is
within the limit, is neither received nor recorded. -/
theorem received_past_cap :
    received 1 2 9 ⟨[97, 97, 97, 97, 10, 98, 10], []⟩ = some ⟨[], [⟨7, true⟩], []⟩ := by
  decide +kernel

end GoalFlight.Acp
