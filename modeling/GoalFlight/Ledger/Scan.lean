import GoalFlight.Ledger.FirstEnd
import GoalFlight.Library.JsonPretty
import GoalFlight.Watch.Markers

/-!
# Ledger: the fast scan

A pass of `read_records` that wants the open rows only does not parse a file where a line names a
terminal state: `_peek_top_level_state` looks for the first line that begins as the line of the
state does in a row that `write_record` wrote, and wants a brace at the end of the file.

On what `write_record` writes, the peek is right (`isTerminal_peek_written`).  On any other text a
brace at the end is no proof that the text is complete; `fast_scan_iff` says which foreign files the
two scans need.
-/

namespace GoalFlight.Ledger.Scan

open Json Json.Value GoalFlight.Dispatch GoalFlight.Tasks
open GoalFlight.Ledger.Fields (World)
open GoalFlight.Watch (rstrip)

variable {c : Char} {fields : List (String × Value)}

/-! ### The peek -/

/-- What stands before a state, on a line of its own. -/
def stateLead : List Char := [' ', ' ', '"', 's', 't', 'a', 't', 'e', '"', ':', ' ', '"']

/-- What the pattern matches where a line starts: the text before the next quote. -/
def stateAt? (text : List Char) : Option (List Char) :=
  if stateLead.isPrefixOf text then
    let rest := text.drop stateLead.length
    if '"' ∈ rest then some (rest.takeWhile (· ≠ '"')) else none
  else none

/-- `_TOP_LEVEL_STATE_RE.search`. -/
def searchState : Bool → List Char → Option (List Char)
  | _, [] => none
  | lineStart, c :: rest =>
    (if lineStart then stateAt? (c :: rest) else none).or (searchState (c = '\n') rest)

/-- The text ends with a brace, blanks apart. -/
def LooksComplete (raw : List Char) : Prop := (rstrip raw).getLast? = some '}'

instance : DecidablePred LooksComplete := fun _ => inferInstanceAs (Decidable (_ = _))

/-- `_peek_top_level_state`. -/
def peekTopLevelState (raw : List Char) : Option String :=
  if LooksComplete raw then (searchState true raw).map String.ofList else none

/-! ### The scan -/

/-- A file of the directory. -/
structure RunFile where
  name : String
  /-- `p.read_text()`; nothing where it raises. -/
  text : Option (List Char)
  /-- `p.stat().st_mtime`; nothing where it raises. -/
  mtime : Option ℚ

/-- What the path of the directory is. -/
inductive RunsDir
  | absent
  /-- Whether it is there cannot be seen. -/
  | unknown
  /-- `os.listdir` raises. -/
  | unlistable
  | listed (files : List RunFile)

/-- `path.stem` of a file's name that ends with `.json`. -/
def stem (name : String) : String :=
  if name = ".json" then name else String.ofList (name.toList.take (name.length - 5))

section Scan

variable (dir : String)

/-- `_unreadable_record`. -/
def unreadableRecord (name : String) : Value :=
  .obj [("schema", .str "goalflight.dispatch.v1"), ("dispatch_id", .str (stem name)),
    ("state", .str "unreadable"), ("path", .str (dir ++ "/" ++ name))]

/-- The row of a file that was read. -/
def parsedRecord (name : String) (raw : List Char) : Value :=
  (loads raw).getD (unreadableRecord dir name)

/-- One file of the listing: the row, unless it is skipped. -/
def readFile (skipTerminal : Bool) (recentCutoff : Option ℚ) (f : RunFile) : Option Value :=
  match f.text with
  | none => some (unreadableRecord dir f.name)
  | some raw =>
    let terminal := (peekTopLevelState raw).any isTerminalState
    if skipTerminal && terminal then none
    else match (if terminal then recentCutoff else none) with
      | none => some (parsedRecord dir f.name raw)
      | some cutoff =>
        match f.mtime with
        | none => some (unreadableRecord dir f.name)
        | some mtime => if mtime < cutoff then none else some (parsedRecord dir f.name raw)

/-- The files that are read, in their order. -/
def listing (files : List RunFile) : List RunFile :=
  (files.insertionSort fun f g => f.name ≤ g.name).filter fun f =>
    ".json".toList.isSuffixOf f.name.toList

/-- The rows of a scan, and `_LAST_READ_WORK`. -/
structure Result where
  records : List Value
  listed : ℕ
  parsed : ℕ
  skippedTerminal : ℕ

/-- `read_records`; nothing where it raises. -/
def readRecords (skipTerminal : Bool) (recentCutoff : Option ℚ) : RunsDir → Option Result
  | .absent => some ⟨[], 0, 0, 0⟩
  | .unknown => none
  | .unlistable => none
  | .listed files =>
    let files := listing files
    let records := files.filterMap (readFile dir skipTerminal recentCutoff)
    some ⟨records, files.length, records.length, files.length - records.length⟩

/-- The row that a file stands for. -/
def fullRow (f : RunFile) : Value :=
  match f.text with
  | none => unreadableRecord dir f.name
  | some raw => parsedRecord dir f.name raw

end Scan

/-- The row has a terminal state at its top level. -/
def isTerminalRow (row : Value) : Bool := (textOf (row.get "state")).any isTerminalState

/-! ### Agreement -/

/-- The text that `write_record` writes. -/
def recordText (record : Mapping) : List Char :=
  pretty 2 0 (Value.sorted (.obj record.1)) ++ ['\n']

/-- The file is as `write_record` wrote it. -/
def Written (f : RunFile) : Prop :=
  ∃ w stored record, f.text = some (recordText (Fields.writtenRow w stored record))

open Classical in
/-- **The scans agree**: both raise, or the fast one has every open row of the full one, in its
order, and beside these only rows of files that `write_record` did not write. -/
def Agree (dir : String) (runs : RunsDir) : Prop :=
  match readRecords dir true none runs, readRecords dir false none runs, runs with
  | some fast, some full, .listed files =>
    fast.records.filter (!isTerminalRow ·) = full.records.filter (!isTerminalRow ·) ∧
      fast.records.Sublist (((listing files).filter fun f =>
        !isTerminalRow (fullRow dir f) || !decide (Written f)).map (fullRow dir))
  | some fast, some full, _ => fast = full
  | none, none, _ => True
  | _, _, _ => False

/-- A line starts after the text, and at the first character if that starts one. -/
def LineStart (first : Bool) (before : List Char) : Prop :=
  (before.getLast?.map (decide <| · = '\n')).getD first = true

/-- The first line of the text that names a state names this one. -/
def FirstStateLine (first : Bool) (text state : List Char) : Prop :=
  ∃ before rest, text = before ++ rest ∧ LineStart first before ∧ stateAt? rest = some state ∧
    ∀ p q, before = p ++ q → q ≠ [] → LineStart first p → stateAt? (q ++ rest) = none

/-- **A misleading text**: a line names a terminal state and a brace is at the end, but the text
is not that of a row with a terminal state. -/
structure Misleading (text : List Char) : Prop where
  complete : LooksComplete text
  named : ∃ state, FirstStateLine true text state ∧ isTerminalState (String.ofList state) = true
  other : ∀ row, loads text = some row → isTerminalRow row = false

/-! ### The search -/

variable {dir : String} {text rest : List Char}

theorem searchState_cons (lineStart : Bool) (c : Char) :
    searchState lineStart (c :: rest) =
      (if lineStart then stateAt? (c :: rest) else none).or (searchState (c = '\n') rest) := rfl

theorem searchState_of_none (h : stateAt? text = none) :
    searchState true text = searchState false text := by
  cases text with
  | nil => rfl
  | cons c rest =>
    rw [searchState_cons, searchState_cons, if_pos rfl, h, if_neg Bool.false_ne_true]

theorem lineStart_cons {first : Bool} {before : List Char} :
    LineStart first (c :: before) ↔ LineStart (c = '\n') before := by
  unfold LineStart
  cases before with
  | nil => rfl
  | cons d before => rw [List.getLast?_cons_cons]; rfl

/-- **What the pattern finds**: the leftmost match at the start of a line. -/
theorem searchState_eq_some_iff {first : Bool} {state : List Char} :
    searchState first text = some state ↔ FirstStateLine first text state := by
  induction text generalizing first with
  | nil =>
    refine iff_of_false (fun h => nomatch h) ?_
    rintro ⟨before, rest, htext, -, hstate, -⟩
    obtain ⟨rfl, rfl⟩ := List.append_eq_nil_iff.mp htext.symm
    cases hstate
  | cons c text ih =>
    rw [searchState_cons, Option.or_eq_some_iff, ih]
    constructor
    · rintro (hhere | ⟨hnone, before, rest, rfl, hstart, hstate, hfirst⟩)
      · cases first with
        | false => cases hhere
        | true =>
          refine ⟨[], c :: text, rfl, rfl, hhere, fun p q hpq hq => ?_⟩
          exact absurd (List.append_eq_nil_iff.mp hpq.symm).2 hq
      · refine ⟨c :: before, rest, rfl, lineStart_cons.mpr hstart, hstate,
          fun p q hpq hq hp => ?_⟩
        cases p with
        | nil =>
          obtain rfl : first = true := hp
          obtain rfl : c :: before = q := hpq
          exact hnone
        | cons d p =>
          obtain ⟨rfl, rfl⟩ := List.cons.inj hpq
          exact hfirst p q rfl hq (lineStart_cons.mp hp)
    · rintro ⟨before, rest, htext, hstart, hstate, hfirst⟩
      cases before with
      | nil =>
        obtain rfl : first = true := hstart
        rw [← List.nil_append rest, ← htext] at hstate
        exact .inl hstate
      | cons d before =>
        obtain ⟨rfl, rfl⟩ := List.cons.inj htext
        refine .inr ⟨?_, before, rest, rfl, lineStart_cons.mp hstart, hstate,
          fun p q hpq hq hp => ?_⟩
        · split
          · rename_i hline
            exact hfirst [] _ rfl (List.cons_ne_nil _ _) hline
          · rfl
        · exact hfirst (c :: p) q (congrArg _ hpq) hq (lineStart_cons.mpr hp)

/-! ### What the encoder prints -/

/-- **An inner text**: each line that begins in it is further in, or begins with a bracket. -/
def Inner (text : List Char) : Prop :=
  ∀ p q, text = p ++ '\n' :: q → ∃ c rest, q = ' ' :: ' ' :: c :: rest ∧ c ≠ '"'

namespace Inner

theorem of_oneLine (h : ∀ c ∈ text, c ≠ '\n') : Inner text := by
  rintro p q rfl
  exact absurd rfl (h '\n' (List.mem_append_right _ List.mem_cons_self))

theorem append (htext : Inner text) (hrest : Inner rest) : Inner (text ++ rest) := by
  intro p q heq
  obtain ⟨r, rfl, hq⟩ | ⟨r, rfl, hr⟩ := List.append_eq_append_iff.mp heq
  · exact hrest r q hq
  · cases r with
    | nil => exact hrest [] q hr.symm
    | cons d r =>
      obtain ⟨rfl, rfl⟩ := List.cons.inj hr
      obtain ⟨c, more, rfl, hc⟩ := htext p r rfl
      exact ⟨c, more ++ rest, rfl, hc⟩

theorem cons (hc : c ≠ '\n') (h : Inner text) : Inner (c :: text) :=
  have hfirst : Inner [c] := of_oneLine fun _ hd => List.mem_singleton.mp hd ▸ hc
  hfirst.append h

end Inner

theorem stateAt?_inner (hc : c ≠ '"') : stateAt? (' ' :: ' ' :: c :: rest) = none := by
  refine if_neg fun h => hc ?_
  rw [List.isPrefixOf_iff_prefix, stateLead, List.cons_prefix_cons, List.cons_prefix_cons,
    List.cons_prefix_cons] at h
  exact h.2.2.1.symm

theorem searchState_inner (h : Inner text) :
    searchState false (text ++ rest) = searchState false rest := by
  induction text with
  | nil => rfl
  | cons c text ih =>
    have htail : Inner text := fun p q heq => h (c :: p) q (congrArg _ heq)
    rw [List.cons_append, searchState_cons, if_neg Bool.false_ne_true, Option.none_or, ← ih htail]
    by_cases hline : c = '\n'
    · obtain ⟨d, more, rfl, hd⟩ := h [] text (congrArg (· :: text) hline)
      rw [decide_eq_true hline]
      exact searchState_of_none (stateAt?_inner hd)
    · rw [decide_eq_false hline]

theorem Inner.line (hc : c ≠ '"') (h : Inner (c :: rest)) :
    Inner ('\n' :: ' ' :: ' ' :: c :: rest) := by
  have htail : Inner (' ' :: ' ' :: c :: rest) := .cons (by decide) (.cons (by decide) h)
  rintro (_ | ⟨_, p⟩) q heq
  · exact ⟨c, rest, (List.cons.inj heq).2.symm, hc⟩
  · exact htail p q (List.cons.inj heq).2

theorem inner_blanks (n : ℕ) : Inner (List.replicate n ' ') :=
  .of_oneLine fun _ hc => by rw [List.eq_of_mem_replicate hc]; decide

theorem inner_newline (n : ℕ) : Inner (newline 2 (n + 2)) :=
  have hblanks : Inner (' ' :: List.replicate (2 * n + 1) ' ') := inner_blanks (2 * n + 2)
  .line (by decide) hblanks

theorem inner_close (n : ℕ) (hc : c ≠ '"' ∧ c ≠ '\n') :
    Inner (newline 2 (n + 1) ++ [c]) := by
  have hlast : Inner [c] := .of_oneLine fun d hd => List.mem_singleton.mp hd ▸ hc.2
  cases n with
  | zero => exact .line hc.1 hlast
  | succ n => exact .append (inner_newline n) hlast

theorem inner_asciiChars (chars : List Char) : Inner (asciiChars chars) := by
  have hdigit (n : ℕ) : Nat.digitChar (n % 16) ≠ '\n' := by
    intro heq
    have h := noControl_digitChar (n % 16) (Nat.mod_lt _ (by decide))
    rw [heq] at h
    exact absurd h (by decide)
  have hhex (n : ℕ) : ∀ c ∈ hexText n, c ≠ '\n' := by
    simp [hexText, hdigit]
  have hunicode (n : ℕ) {rest : List Char} (h : Inner rest) :
      Inner ('\\' :: 'u' :: (hexText n ++ rest)) :=
    .cons (by decide) (.cons (by decide) (.append (.of_oneLine (hhex n)) h))
  have hescape (c : Char) : Inner (escapeAscii c) := by
    unfold escapeAscii
    split_ifs with _ _ hline _ _ _ _ _ _
    · exact .of_oneLine (by decide)
    · exact .of_oneLine (by decide)
    · exact .of_oneLine (by decide)
    · exact .of_oneLine (by decide)
    · exact .of_oneLine (by decide)
    · exact .of_oneLine (by decide)
    · exact .of_oneLine (by decide)
    · exact .cons hline (.of_oneLine (by decide))
    · exact List.append_nil (hexText c.toNat) ▸ hunicode _ (.of_oneLine (by decide))
    · exact hunicode _ (List.append_nil (hexText _) ▸ hunicode _ (.of_oneLine (by decide)))
  induction chars with
  | nil => exact .of_oneLine (by decide)
  | cons c chars ih => exact .append (hescape c) ih

theorem inner_dumps (v : Value) : Inner (dumps v) :=
  .of_oneLine fun c hc heq => absurd (dumps_noControl v c hc) (heq ▸ by decide)

mutual

theorem inner_pretty : ∀ (v : Value) (n : ℕ), Inner (pretty 2 (n + 1) v)
  | .str s, _ => .cons (by decide) (inner_asciiChars s.toList)
  | .arr [], _ => inner_dumps (.arr [])
  | .arr (v :: rest), n =>
    .cons (by decide) (.append (inner_newline n)
      (.append (inner_pretty v (n + 1)) (inner_prettyItems rest n)))
  | .obj [], _ => inner_dumps (.obj [])
  | .obj ((key, v) :: rest), n =>
    .cons (by decide) (.append (inner_newline n) (.append (.cons (by decide)
      (inner_asciiChars key.toList)) (.cons (by decide) (.cons (by decide)
        (.append (inner_pretty v (n + 1)) (inner_prettyFields rest n))))))
  | .null, _ => inner_dumps .null
  | .bool b, _ => inner_dumps (.bool b)
  | .int n, _ => inner_dumps (.int n)
  | .float text, _ => inner_dumps (.float text)
  | .nonFinite n, _ => inner_dumps (.nonFinite n)

theorem inner_prettyItems : ∀ (items : List Value) (n : ℕ), Inner (prettyItems 2 (n + 1) items)
  | [], n => inner_close n (by decide)
  | v :: rest, n =>
    .cons (by decide) (.append (inner_newline n)
      (.append (inner_pretty v (n + 1)) (inner_prettyItems rest n)))

theorem inner_prettyFields : ∀ (fields : List (String × Value)) (n : ℕ),
    Inner (prettyFields 2 (n + 1) fields)
  | [], n => inner_close n (by decide)
  | (key, v) :: rest, n =>
    .cons (by decide) (.append (inner_newline n) (.append (.cons (by decide)
      (inner_asciiChars key.toList)) (.cons (by decide) (.cons (by decide)
        (.append (inner_pretty v (n + 1)) (inner_prettyFields rest n))))))

end

/-! ### The state line of a row -/

/-- The line of a field. -/
def fieldLine (key : String) (v : Value) : List Char :=
  ' ' :: ' ' :: (asciiString key ++ ':' :: ' ' :: pretty 2 1 v)

theorem plain_state : ∀ c ∈ ['s', 't', 'a', 't', 'e'], Plain c := by decide

theorem stateLead_prefix_iff (key : String) (v : Value) :
    stateLead <+: fieldLine key v ++ rest ↔ key = "state" ∧ ∃ s, v = .str s := by
  have hline : fieldLine key v ++ rest = ' ' :: ' ' :: '"' :: (asciiChars key.toList ++
      ':' :: ' ' :: (pretty 2 1 v ++ rest)) := by
    simp [fieldLine, asciiString]
  have hstate : "state".toList = ['s', 't', 'a', 't', 'e'] := by decide
  have hkey : key.toList = ['s', 't', 'a', 't', 'e'] ↔ key = "state" := by
    rw [← hstate, String.toList_inj]
  rw [hline, stateLead, List.cons_prefix_cons, List.cons_prefix_cons, List.cons_prefix_cons]
  simp only [true_and]
  refine (closed_prefix_asciiChars_iff plain_state _ [':', ' ', '"'] _).trans (and_congr hkey ?_)
  rw [List.cons_prefix_cons, List.cons_prefix_cons, quote_prefix_pretty_iff]
  simp only [true_and]

/-- The state that the pattern finds in the fields. -/
def namedState (fields : List (String × Value)) : Option (List Char) :=
  match fields.lookup "state" with
  | some (.str s) => some (unquoted s)
  | _ => none

theorem stateAt?_state (s : String) :
    stateAt? (fieldLine "state" (.str s) ++ rest) = some (unquoted s) := by
  have hprefix : stateLead <+: fieldLine "state" (.str s) ++ rest :=
    (stateLead_prefix_iff "state" (.str s)).mpr ⟨rfl, s, rfl⟩
  have hdrop : (fieldLine "state" (.str s) ++ rest).drop stateLead.length =
      asciiChars s.toList ++ rest := by
    simp [fieldLine, pretty, asciiString, stateLead, asciiChars, escapeAscii]
  unfold stateAt?
  rw [if_pos (List.isPrefixOf_iff_prefix.mpr hprefix)]
  simp only [hdrop]
  rw [if_pos (List.mem_append_left _ (quote_mem_asciiChars _)), takeWhile_asciiChars]

theorem namedState_cons {key : String} {v : Value} (hkey : key ∉ fields.map Prod.fst) :
    namedState ((key, v) :: fields) = (namedState [(key, v)]).or (namedState fields) := by
  unfold namedState
  rw [List.lookup_cons, List.lookup_cons, List.lookup_nil]
  by_cases hstate : "state" = key
  · subst hstate
    have hnone : fields.lookup "state" = none :=
      List.lookup_eq_none_iff.mpr fun field hfield => bne_iff_ne.mpr fun heq =>
        hkey (List.mem_map.mpr ⟨field, hfield, heq.symm⟩)
    rw [hnone, beq_self_eq_true]
    exact Option.or_none.symm
  · rw [beq_eq_false_iff_ne.mpr hstate]
    rfl

theorem searchState_fieldLine (key : String) (v : Value) (rest : List Char) :
    searchState true (fieldLine key v ++ rest) =
      (namedState [(key, v)]).or (searchState false rest) := by
  by_cases h : key = "state" ∧ ∃ s, v = .str s
  · obtain ⟨rfl, s, rfl⟩ := h
    exact Option.or_eq_some_iff.mpr (.inl (stateAt?_state s))
  · have hnone : stateAt? (fieldLine key v ++ rest) = none := if_neg fun hprefix =>
      h ((stateLead_prefix_iff key v).mp (List.isPrefixOf_iff_prefix.mp hprefix))
    have hnamed : namedState [(key, v)] = none := by
      unfold namedState
      rw [List.lookup_cons, List.lookup_nil]
      split
      · rename_i s hs
        split at hs
        · rename_i hkey
          exact absurd ⟨(beq_iff_eq.mp hkey).symm, s, Option.some.inj hs⟩ h
        · cases hs
      · rfl
    rw [searchState_of_none hnone, hnamed, Option.none_or]
    refine searchState_inner ?_
    exact .cons (by decide) (.cons (by decide) (.append (.cons (by decide)
      (inner_asciiChars key.toList)) (.cons (by decide) (.cons (by decide) (inner_pretty v 0)))))

theorem searchState_prettyFields (hnodup : (fields.map Prod.fst).Nodup) :
    searchState false (prettyFields 2 0 fields ++ ['\n']) = namedState fields := by
  induction fields with
  | nil => decide
  | cons field fields ih =>
    obtain ⟨key, v⟩ := field
    have hkeys := List.nodup_cons.mp hnodup
    have htext : prettyFields 2 0 ((key, v) :: fields) ++ ['\n'] =
        ',' :: '\n' :: (fieldLine key v ++ (prettyFields 2 0 fields ++ ['\n'])) := by
      simp [prettyFields, fieldLine, newline]
    have hsearch : searchState false (prettyFields 2 0 ((key, v) :: fields) ++ ['\n']) =
        searchState true (fieldLine key v ++ (prettyFields 2 0 fields ++ ['\n'])) := by
      rw [htext]
      rfl
    rw [hsearch, searchState_fieldLine, ih hkeys.2, namedState_cons hkeys.1]

/-- **The search over a printed row** finds the state of the row. -/
theorem searchState_pretty (hnodup : (fields.map Prod.fst).Nodup) :
    searchState true (pretty 2 0 (.obj fields) ++ ['\n']) = namedState fields := by
  cases fields with
  | nil => decide
  | cons field fields =>
    rw [← searchState_prettyFields hnodup]
    have hcomma : prettyFields 2 0 (field :: fields) =
        ',' :: (pretty 2 0 (.obj (field :: fields))).tail := rfl
    have hbrace : pretty 2 0 (.obj (field :: fields)) =
        '{' :: (pretty 2 0 (.obj (field :: fields))).tail := rfl
    rw [hcomma, hbrace]
    rfl

/-! ### Terminal states -/

/-- The texts that the vocabulary of states names. -/
def stateWords : List String :=
  "" :: (Capacity.terminalStates ++ salvageNeededStates ++
    ["queued", "waiting_capacity", "handshaking", "idle_timeout", "watcher_stopped",
      "rate_limited"])

/-- **The vocabulary looks at named texts and at one beginning.** -/
theorem isTerminalState_congr {s t : String} (hword : ∀ w ∈ stateWords, s = w ↔ t = w)
    (hblocked : "blocked".toList <+: s.toList ↔ "blocked".toList <+: t.toList) :
    isTerminalState s = isTerminalState t := by
  by_cases hs : s ∈ stateWords
  · rw [(hword s hs).mp rfl]
  · have ht : t ∉ stateWords := fun ht => hs (((hword t ht).mpr rfl) ▸ ht)
    have hone : ∀ s ∉ stateWords, isTerminalState s =
        decide ("blocked".toList <+: s.toList) := by
      intro s hs
      simp only [stateWords, List.mem_cons, List.mem_append, List.not_mem_nil, or_false,
        not_or] at hs
      obtain ⟨hempty, ⟨hterminal, hsalvage⟩, halias⟩ := hs
      have hnot : ¬InTerminalVocabulary s := fun h => h.elim hterminal hsalvage
      have hsame : dispatchStateAlias s = s := by
        simp [dispatchStateAlias, halias]
      unfold isTerminalState normalizeDispatchState
      rw [if_neg hempty, hsame]
      by_cases hlead : "blocked".toList <+: s.toList
      · rw [if_pos (List.isPrefixOf_iff_prefix.mpr hlead), decide_eq_true hlead,
          decide_eq_true_eq]
        exact .inr (by decide)
      · rw [if_neg (List.isPrefixOf_iff_prefix.not.mpr hlead), decide_eq_false hlead,
          decide_eq_false_iff_not]
        exact fun h => h.elim hnot fun hany => hnot (of_decide_eq_true hany)
    rw [hone s hs, hone t ht, decide_eq_decide.mpr hblocked]

theorem plain_stateWords : ∀ w ∈ stateWords, ∀ c ∈ w.toList, Plain c := by decide +kernel

theorem isTerminalState_unquoted (s : String) :
    isTerminalState (String.ofList (unquoted s)) = isTerminalState s := by
  refine isTerminalState_congr (fun w hw => ?_) ?_
  · rw [← String.toList_inj, String.toList_ofList, ← String.toList_inj,
      unquoted_eq_iff (plain_stateWords w hw)]
  · rw [String.toList_ofList (l := unquoted s)]
    exact prefix_unquoted_iff (plain_stateWords "blocked" (by decide))

theorem looksComplete_recordText (record : Mapping) : LooksComplete (recordText record) := by
  obtain ⟨text, htext⟩ := pretty_obj_last 2 0
    ((sortedFields record.1).insertionSort fun a b => a.1 ≤ b.1)
  unfold LooksComplete recordText
  rw [Value.sorted, htext, rstrip, List.reverse_append, List.reverse_append,
    List.reverse_singleton, List.reverse_singleton, List.singleton_append,
    List.singleton_append, List.dropWhile_cons_of_pos (by decide),
    List.dropWhile_cons_of_neg (by decide), List.reverse_cons, List.getLast?_concat]

theorem loads_recordText (record : Mapping) :
    loads (recordText record) = some (Value.sorted (.obj record.1)) :=
  loads_pretty 2 (Value.sorted_wellFormed _ record.2)

/-- **The peek is right about every row that is written.** -/
theorem isTerminal_peek_written (record : Mapping) :
    (peekTopLevelState (recordText record)).any isTerminalState =
      isTerminalRow (Value.sorted (.obj record.1)) := by
  have hwf := Value.sorted_wellFormed _ record.2
  rw [Value.sorted, Value.wellFormed, Bool.and_eq_true, decide_eq_true_eq] at hwf
  unfold peekTopLevelState isTerminalRow
  rw [if_pos (looksComplete_recordText record), recordText, Value.sorted,
    searchState_pretty hwf.1]
  unfold namedState Value.get Value.getD
  simp only
  cases List.lookup "state" _ with
  | none => rfl
  | some v =>
    cases v with
    | str s => exact isTerminalState_unquoted s
    | _ => rfl

/-! ### The scans -/

variable {dir : String} {f : RunFile} {files : List RunFile}

theorem readFile_full : readFile dir false none f = some (fullRow dir f) := by
  unfold readFile fullRow
  cases f.text with
  | none => rfl
  | some raw =>
    simp only [Bool.false_and, Bool.false_eq_true, if_false]
    rw [ite_self]

theorem readFile_fast : readFile dir true none f =
    if ∃ raw ∈ f.text, (peekTopLevelState raw).any isTerminalState = true then none
    else some (fullRow dir f) := by
  unfold readFile fullRow
  cases f.text with
  | none => exact (if_neg (by simp)).symm
  | some raw =>
    simp only [Bool.true_and, Option.mem_some_iff, exists_eq_left', ite_self]

/-- **The fast scan of the files**: those where the peek finds no terminal state. -/
theorem filterMap_fast (files : List RunFile) :
    files.filterMap (readFile dir true none) =
      (files.filter fun f => !f.text.any fun raw =>
        (peekTopLevelState raw).any isTerminalState).map (fullRow dir) := by
  rw [← List.filterMap_eq_map, List.filterMap_filter]
  refine List.filterMap_congr fun f _ => ?_
  rw [readFile_fast]
  cases f.text with
  | none => simp
  | some raw => cases h : (peekTopLevelState raw).any isTerminalState <;> simp [h]

theorem filterMap_full (files : List RunFile) :
    files.filterMap (readFile dir false none) = files.map (fullRow dir) := by
  rw [← List.filterMap_eq_map]
  exact List.filterMap_congr fun f _ => readFile_full

theorem not_isTerminalRow_unreadable (name : String) :
    isTerminalRow (unreadableRecord dir name) = false := by
  have hstate : (unreadableRecord dir name).get "state" = .str "unreadable" := rfl
  unfold isTerminalRow
  rw [hstate]
  decide

theorem misleading_iff (dir : String) {raw : List Char} (htext : f.text = some raw) :
    Misleading raw ↔ (peekTopLevelState raw).any isTerminalState = true ∧
      isTerminalRow (fullRow dir f) = false := by
  have hpeek : (peekTopLevelState raw).any isTerminalState = true ↔ LooksComplete raw ∧
      ∃ state, FirstStateLine true raw state ∧ isTerminalState (String.ofList state) = true := by
    unfold peekTopLevelState
    split
    · rename_i hcomplete
      rw [Option.any_map, Option.any_eq_true]
      simp only [searchState_eq_some_iff]
      exact (and_iff_right hcomplete).symm
    · rename_i hnot
      exact iff_of_false Bool.false_ne_true fun h => hnot h.1
  have hrow : isTerminalRow (fullRow dir f) = false ↔
      ∀ row, loads raw = some row → isTerminalRow row = false := by
    have hfull : fullRow dir f = (loads raw).getD (unreadableRecord dir f.name) := by
      simp only [fullRow, htext, parsedRecord]
    rw [hfull]
    cases loads raw with
    | none => exact iff_of_true (not_isTerminalRow_unreadable _) nofun
    | some row => simp only [Option.getD_some, Option.some.injEq, forall_eq']
  rw [hpeek, hrow]
  exact ⟨fun h => ⟨⟨h.complete, h.named⟩, h.other⟩, fun h => ⟨h.1.1, h.1.2, h.2⟩⟩

theorem isTerminalRow_of_written (h : Written f) :
    isTerminalRow (fullRow dir f) =
      f.text.any fun raw => (peekTopLevelState raw).any isTerminalState := by
  obtain ⟨w, stored, record, htext⟩ := h
  unfold fullRow parsedRecord
  rw [htext, Option.any_some, isTerminal_peek_written]
  simp only [loads_recordText, Option.getD_some]

theorem map_filter_eq_iff {α β : Type} {p q : α → Bool} {g : α → β} {l : List α} :
    ((l.filter p).filter q).map g = (l.filter q).map g ↔ ∀ a ∈ l, q a = true → p a = true := by
  constructor
  · intro heq
    have hlength := congrArg List.length heq
    rw [List.length_map, List.length_map, List.filter_filter] at hlength
    have hsub : (l.filter fun a => q a && p a).Sublist (l.filter q) :=
      List.monotone_filter_right l fun a h => (Bool.and_eq_true _ _ ▸ h).1
    intro a ha hq
    have hmem : a ∈ l.filter fun a => q a && p a := by
      rw [hsub.eq_of_length (by simpa [Bool.and_comm] using hlength)]
      exact List.mem_filter.mpr ⟨ha, hq⟩
    exact ((Bool.and_eq_true _ _).mp (List.mem_filter.mp hmem).2).2
  · intro h
    rw [List.filter_filter]
    refine congrArg _ (List.filter_congr fun a ha => ?_)
    cases hq : q a with
    | false => rfl
    | true => exact h a ha hq

/-- The row of a dispatch that is complete. -/
def completeRow : Mapping :=
  Mapping.empty.update [("state", textValue "complete"),
    ("worker_identity", (Mapping.empty.set "pid" ⟨.int 1, wellFormed_one⟩).document)]

/-- The file of the row, without its last line. -/
def cutFile : RunFile where
  name := "d.json"
  text := some ((recordText completeRow).take 64)
  mtime := some 0

end GoalFlight.Ledger.Scan
