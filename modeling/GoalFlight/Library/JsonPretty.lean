import GoalFlight.Library.JsonRoundTrip
import Mathlib.Data.List.Sort

/-!
# JSON texts on many lines

The encoder with an indentation, in ASCII and with sorted keys.  `loads_pretty`: the decoder reads
such a text as the value it was made of.  Blanks stand only between the parts of a container,
where the decoder passes them over; what is new against the encoder on one line is that an open
number may meet a line end first.
-/

namespace Json

variable {v : Value} {s : Config} {word : List Char}

/-! ### Sorted keys -/

mutual

/-- The value with the fields of its objects in the order of their keys. -/
def Value.sorted : Value → Value
  | .arr items => .arr (sortedItems items)
  | .obj fields => .obj ((sortedFields fields).insertionSort fun a b => a.1 ≤ b.1)
  | .null => .null
  | .bool b => .bool b
  | .int n => .int n
  | .float text => .float text
  | .nonFinite n => .nonFinite n
  | .str s => .str s

def sortedItems : List Value → List Value
  | [] => []
  | v :: rest => v.sorted :: sortedItems rest

def sortedFields : List (String × Value) → List (String × Value)
  | [] => []
  | (key, v) :: rest => (key, v.sorted) :: sortedFields rest

end

theorem map_fst_sortedFields (fields : List (String × Value)) :
    (sortedFields fields).map Prod.fst = fields.map Prod.fst := by
  induction fields with
  | nil => rfl
  | cons field rest ih => rw [sortedFields, List.map_cons, List.map_cons, ih]

theorem wellFormedFields_perm {fields others : List (String × Value)} (h : fields.Perm others)
    (hwf : wellFormedFields fields = true) : wellFormedFields others = true := by
  induction h with
  | nil => rfl
  | cons field _ ih =>
    rw [wellFormedFields, Bool.and_eq_true] at hwf ⊢
    exact ⟨hwf.1, ih hwf.2⟩
  | swap a b rest =>
    simp only [wellFormedFields, Bool.and_eq_true] at hwf ⊢
    exact ⟨hwf.2.1, hwf.1, hwf.2.2⟩
  | trans _ _ ih₁ ih₂ => exact ih₂ (ih₁ hwf)

mutual

theorem Value.sorted_wellFormed : ∀ v : Value, v.wellFormed = true → v.sorted.wellFormed = true
  | .arr items, h => by
    rw [Value.wellFormed] at h
    rw [Value.sorted, Value.wellFormed, sortedItems_wellFormed items h]
  | .obj fields, h => by
    rw [Value.wellFormed, Bool.and_eq_true, decide_eq_true_eq] at h
    have hperm := List.perm_insertionSort (fun a b : String × Value => a.1 ≤ b.1)
      (sortedFields fields)
    rw [Value.sorted, Value.wellFormed, Bool.and_eq_true, decide_eq_true_eq]
    refine ⟨(hperm.map Prod.fst).nodup_iff.mpr ?_,
      wellFormedFields_perm hperm.symm (sortedFields_wellFormed fields h.2)⟩
    rw [map_fst_sortedFields]
    exact h.1
  | .null, _ | .bool _, _ | .int _, _ | .float _, _ | .nonFinite _, _ | .str _, _ => rfl

theorem sortedItems_wellFormed : ∀ items : List Value, wellFormedItems items = true →
    wellFormedItems (sortedItems items) = true
  | [], _ => rfl
  | v :: rest, h => by
    rw [wellFormedItems, Bool.and_eq_true] at h
    rw [sortedItems, wellFormedItems, Bool.and_eq_true]
    exact ⟨v.sorted_wellFormed h.1, sortedItems_wellFormed rest h.2⟩

theorem sortedFields_wellFormed : ∀ fields : List (String × Value),
    wellFormedFields fields = true → wellFormedFields (sortedFields fields) = true
  | [], _ => rfl
  | (_, v) :: rest, h => by
    rw [wellFormedFields, Bool.and_eq_true] at h
    rw [sortedFields, wellFormedFields, Bool.and_eq_true]
    exact ⟨v.sorted_wellFormed h.1, sortedFields_wellFormed rest h.2⟩

end

/-! ### Encoding -/

/-- Four hexadecimal digits. -/
def hexText (n : ℕ) : List Char :=
  [Nat.digitChar (n / 4096 % 16), Nat.digitChar (n / 256 % 16), Nat.digitChar (n / 16 % 16),
    Nat.digitChar (n % 16)]

/-- A character inside a string, in ASCII: two surrogates where one escape is too short. -/
def escapeAscii (c : Char) : List Char :=
  if c = '"' then ['\\', '"']
  else if c = '\\' then ['\\', '\\']
  else if c = '\n' then ['\\', 'n']
  else if c = '\r' then ['\\', 'r']
  else if c = '\t' then ['\\', 't']
  else if c.toNat = 8 then ['\\', 'b']
  else if c.toNat = 12 then ['\\', 'f']
  else if 32 ≤ c.toNat ∧ c.toNat ≤ 126 then [c]
  else if c.toNat < 0x10000 then '\\' :: 'u' :: hexText c.toNat
  else
    '\\' :: 'u' :: (hexText (0xD800 + (c.toNat - 0x10000) / 0x400) ++
      '\\' :: 'u' :: hexText (0xDC00 + (c.toNat - 0x10000) % 0x400))

/-- The characters of a string and its closing quote. -/
def asciiChars : List Char → List Char
  | [] => ['"']
  | c :: rest => escapeAscii c ++ asciiChars rest

/-- A string. -/
def asciiString (s : String) : List Char := '"' :: asciiChars s.toList

section Pretty

variable (indent : ℕ)

/-- A line end, and the indentation of the next line. -/
def newline (level : ℕ) : List Char := '\n' :: List.replicate (indent * level) ' '

mutual

/-- `json.dumps(value, indent=indent)`, at a level. -/
def pretty (level : ℕ) : Value → List Char
  | .null => dumps .null
  | .bool b => dumps (.bool b)
  | .int n => dumps (.int n)
  | .float text => dumps (.float text)
  | .nonFinite n => dumps (.nonFinite n)
  | .str s => asciiString s
  | .arr [] => ['[', ']']
  | .arr (v :: rest) =>
    '[' :: (newline indent (level + 1) ++ (pretty (level + 1) v ++ prettyItems level rest))
  | .obj [] => ['{', '}']
  | .obj ((key, v) :: rest) =>
    '{' :: (newline indent (level + 1) ++ (asciiString key ++ ':' :: ' ' ::
      (pretty (level + 1) v ++ prettyFields level rest)))

/-- The items after the first one, and the bracket. -/
def prettyItems (level : ℕ) : List Value → List Char
  | [] => newline indent level ++ [']']
  | v :: rest =>
    ',' :: (newline indent (level + 1) ++ (pretty (level + 1) v ++ prettyItems level rest))

/-- The fields after the first one, and the brace. -/
def prettyFields (level : ℕ) : List (String × Value) → List Char
  | [] => newline indent level ++ ['}']
  | (key, v) :: rest =>
    ',' :: (newline indent (level + 1) ++ (asciiString key ++ ':' :: ' ' ::
      (pretty (level + 1) v ++ prettyFields level rest)))

end

end Pretty

/-! ### Strings read back -/

theorem hexValue_digitChar : ∀ n < 16, hexValue (Nat.digitChar n) = some n := by decide

theorem run_hexText (stack : List Frame) (chars : List Char) (high : Option ℕ) {n : ℕ}
    (hn : n < 0x10000) :
    run ⟨.hex chars high [], stack⟩ (hexText n) = completeHex stack chars high n := by
  have hdigit (m : ℕ) : hexValue (Nat.digitChar (m % 16)) = some (m % 16) :=
    hexValue_digitChar _ (Nat.mod_lt _ (by decide))
  have hstep (digits : List ℕ) (m : ℕ) (h : digits.length < 3) :
      step ⟨.hex chars high digits, stack⟩ (Nat.digitChar (m % 16)) =
        some ⟨.hex chars high (digits ++ [m % 16]), stack⟩ := by
    unfold step
    simp only [hdigit, if_pos h]
  have hlast (digits : List ℕ) (m : ℕ) (h : ¬digits.length < 3) :
      step ⟨.hex chars high digits, stack⟩ (Nat.digitChar (m % 16)) =
        completeHex stack chars high
          ((digits ++ [m % 16]).foldl (fun code digit => 16 * code + digit) 0) := by
    unfold step
    simp only [hdigit, if_neg h]
  have hvalue : ([n / 4096 % 16, n / 256 % 16, n / 16 % 16, n % 16]).foldl
      (fun code digit => 16 * code + digit) 0 = n := by
    simp only [List.foldl_cons, List.foldl_nil]
    omega
  unfold hexText
  rw [run_cons, hstep [] _ (Nat.lt_add_one_of_le (Nat.zero_le 2)), Option.bind_some,
    List.nil_append, run_cons, hstep [_] _ (by decide : 1 < 3), Option.bind_some,
    List.singleton_append, run_cons, hstep [_, _] _ (Nat.lt_add_one 2), Option.bind_some,
    run_singleton, List.cons_append, List.singleton_append, hlast [_, _, _] _ (Nat.lt_irrefl 3)]
  exact congrArg _ hvalue

theorem toNat_valid (c : Char) :
    c.toNat < 0xD800 ∨ 0xDFFF < c.toNat ∧ c.toNat < 0x110000 := by
  have hvalid : c.toNat.isValidChar := c.valid
  unfold Nat.isValidChar at hvalid
  exact hvalid

theorem run_unicode (stack : List Frame) (chars text : List Char) :
    run ⟨.str chars, stack⟩ ('\\' :: 'u' :: text) = run ⟨.hex chars none [], stack⟩ text := rfl

theorem run_low (stack : List Frame) (chars : List Char) (high : ℕ) (text : List Char) :
    run ⟨.low chars high false, stack⟩ ('\\' :: 'u' :: text) =
      run ⟨.hex chars (some high) [], stack⟩ text := rfl

theorem run_escapeAscii (stack : List Frame) (chars : List Char) (c : Char) :
    run ⟨.str chars, stack⟩ (escapeAscii c) = some ⟨.str (chars ++ [c]), stack⟩ := by
  have hofNat : Char.ofNat c.toNat = c := Char.ofNat_toNat c
  unfold escapeAscii
  split
  · subst_vars
    rfl
  split
  · subst_vars
    rfl
  split
  · subst_vars
    rfl
  split
  · subst_vars
    rfl
  split
  · subst_vars
    rfl
  split
  · rename_i hb
    rw [← hofNat, hb]
    rfl
  split
  · rename_i hf
    rw [← hofNat, hf]
    rfl
  rename_i hquote hbackslash _ _ _ _ _
  split
  · rename_i hplain
    have hstep : step ⟨.str chars, stack⟩ c = some ⟨.str (chars ++ [c]), stack⟩ := by
      unfold step
      simp only
      rw [if_neg hquote, if_neg hbackslash, if_neg (by omega)]
    rw [run_singleton, hstep]
  split
  · rename_i hshort
    have hvalid := toNat_valid c
    rw [run_unicode, run_hexText stack chars none hshort]
    unfold completeHex
    simp only
    rw [if_neg (by omega), if_neg (by omega), hofNat]
  · rename_i hlong
    have hvalid := toNat_valid c
    have hhigh : 0xD800 + (c.toNat - 0x10000) / 0x400 < 0x10000 := by omega
    have hlow : 0xDC00 + (c.toNat - 0x10000) % 0x400 < 0x10000 := by omega
    rw [run_unicode, run_append, run_hexText stack chars none hhigh]
    unfold completeHex
    simp only
    rw [if_pos (by omega), Option.bind_some, run_low, run_hexText stack chars _ hlow]
    unfold completeHex
    simp only
    rw [if_pos (by omega)]
    have hcode : 0x10000 + (0xD800 + (c.toNat - 0x10000) / 0x400 - 0xD800) * 0x400 +
        (0xDC00 + (c.toNat - 0x10000) % 0x400 - 0xDC00) = c.toNat := by omega
    rw [hcode, hofNat]

theorem run_asciiChars (stack : List Frame) (chars text : List Char) :
    run ⟨.str chars, stack⟩ (asciiChars text) = completeString stack (chars ++ text) := by
  induction text generalizing chars with
  | nil =>
    have hstep : step ⟨.str chars, stack⟩ '"' = completeString stack chars := rfl
    rw [asciiChars, run_singleton, hstep, List.append_nil]
  | cons c text ih =>
    rw [asciiChars, run_append, run_escapeAscii, Option.bind_some, ih, List.append_assoc,
      List.singleton_append]

theorem run_asciiString_key {mode : Mode} (hmode : mode = .firstKey ∨ mode = .key)
    (fs : List (String × Value)) (rest : List Frame) (key : String) :
    run ⟨mode, .fields fs :: rest⟩ (asciiString key) = some ⟨.colon, .field fs key :: rest⟩ := by
  have hstep : step ⟨mode, .fields fs :: rest⟩ '"' = some ⟨.str [], .fields fs :: rest⟩ := by
    rcases hmode with rfl | rfl <;> rfl
  rw [asciiString, run_cons, hstep, Option.bind_some, run_asciiChars, List.nil_append]
  show some (Config.mk .colon (.field fs (String.ofList key.toList) :: rest)) = _
  rw [String.ofList_toList]

/-! ### Values read back -/

theorem notMem_of_nodup {fs rest : List (String × Value)} {key : String}
    (h : ((fs ++ (key, v) :: rest).map Prod.fst).Nodup) : key ∉ fs.map Prod.fst := by
  rw [List.map_append, List.nodup_append] at h
  intro hmem
  exact h.2.2 key hmem key (List.mem_map_of_mem List.mem_cons_self) rfl

variable {indent level : ℕ} {stack : List Frame}

theorem run_blanks (h : step s ' ' = some s) (n : ℕ) :
    run s (List.replicate n ' ') = some s := by
  induction n with
  | zero => rfl
  | succ n ih => rw [List.replicate_succ, run_cons, h, Option.bind_some, ih]

theorem run_newline {s' : Config} (hfirst : step s '\n' = some s')
    (hblank : step s' ' ' = some s') : run s (newline indent level) = some s' := by
  rw [newline, run_cons, hfirst, Option.bind_some, run_blanks hblank]

theorem Ended.run_newline {s' : Config} (h : Ended stack v s)
    (hs' : complete stack v = some s') : run s (newline indent level) = some s' := by
  have hstay : stepAfter s' '\n' = some s' ∧ step s' ' ' = some s' := by
    unfold complete at hs'
    split at hs'
    · cases hs'
      exact ⟨rfl, rfl⟩
    · cases hs'
      exact ⟨rfl, rfl⟩
    · cases hs'
      exact ⟨rfl, rfl⟩
    · cases hs'
  refine Json.run_newline ?_ hstay.2
  rw [h.step_eq hs' rfl (by decide), hstay.1]

theorem pretty_head (indent level : ℕ) (v : Value) :
    ∃ c rest, pretty indent level v = c :: rest ∧ isBlank c = false ∧ c ≠ ']' := by
  have hnumber : ∀ text, NumberText text →
      ∃ c rest, text = c :: rest ∧ isBlank c = false ∧ c ≠ ']' := by
    intro text htext
    obtain ⟨c, rest, rfl, hc⟩ := htext.head
    have hne : ∀ d : Char, d ≠ '-' → d.isDigit = false → c ≠ d := by
      rintro d hminus hdigit rfl
      rcases hc with rfl | hisDigit
      · exact hminus rfl
      · rw [hdigit] at hisDigit
        cases hisDigit
    refine ⟨c, rest, rfl, ?_, hne ']' (by decide) rfl⟩
    unfold isBlank
    simp [hne ' ' (by decide) rfl, hne '\t' (by decide) rfl, hne '\n' (by decide) rfl,
      hne '\r' (by decide) rfl]
  cases v with
  | null => exact ⟨_, _, rfl, rfl, by decide⟩
  | bool b => cases b <;> exact ⟨_, _, rfl, rfl, by decide⟩
  | int n => exact hnumber _ (numberText_intText n)
  | float text => exact hnumber _ (numberText_float text)
  | nonFinite n => cases n <;> exact ⟨_, _, rfl, rfl, by decide⟩
  | str s => exact ⟨_, _, rfl, rfl, by decide⟩
  | arr items => cases items <;> exact ⟨_, _, rfl, rfl, by decide⟩
  | obj fields => cases fields <;> exact ⟨_, _, rfl, rfl, by decide⟩

theorem run_firstItem_pretty (v : Value) (stack : List Frame) :
    run ⟨.firstItem, stack⟩ (pretty indent level v) =
      run ⟨.value, stack⟩ (pretty indent level v) := by
  obtain ⟨c, rest, htext, hblank, hbracket⟩ := pretty_head indent level v
  have hstep : step ⟨.firstItem, stack⟩ c = stepValue stack c := by
    unfold step
    simp only
    rw [hblank, if_neg Bool.false_ne_true, if_neg hbracket]
  rw [htext, run_cons, run_cons, hstep]
  rfl

mutual

theorem run_pretty : ∀ (v : Value), v.wellFormed = true → ∀ level stack, Open stack →
    ∃ s, run ⟨.value, stack⟩ (pretty indent level v) = some s ∧ Ended stack v s
  | .null, h, _, stack, hopen => run_dumps .null h stack hopen
  | .bool b, h, _, stack, hopen => run_dumps (.bool b) h stack hopen
  | .int n, h, _, stack, hopen => run_dumps (.int n) h stack hopen
  | .float text, h, _, stack, hopen => run_dumps (.float text) h stack hopen
  | .nonFinite n, h, _, stack, hopen => run_dumps (.nonFinite n) h stack hopen
  | .str s, _, _, stack, hopen => by
    refine hopen.ended_of_run ?_
    rw [← hopen.completeString_eq]
    exact run_asciiChars stack [] s.toList
  | .arr [], _, _, stack, hopen =>
    hopen.ended_of_run (run_singleton ⟨.firstItem, .items [] :: stack⟩ ']')
  | .arr (v :: rest), hwf, level, stack, hopen => by
    rw [Value.wellFormed, wellFormedItems, Bool.and_eq_true] at hwf
    refine hopen.ended_of_run ?_
    obtain ⟨s, hrun, hended⟩ := run_pretty v hwf.1 (level + 1) (.items [] :: stack)
      (open_items [] stack)
    show run ⟨.firstItem, .items [] :: stack⟩ (newline indent (level + 1) ++
      (pretty indent (level + 1) v ++ prettyItems indent level rest)) = _
    rw [run_append, run_newline rfl rfl, Option.bind_some, run_append, run_firstItem_pretty, hrun,
      Option.bind_some, run_prettyItems rest hwf.2 level stack [] v s hended]
    rfl
  | .obj [], _, _, stack, hopen =>
    hopen.ended_of_run (run_singleton ⟨.firstKey, .fields [] :: stack⟩ '}')
  | .obj ((key, v) :: rest), hwf, level, stack, hopen => by
    rw [Value.wellFormed, wellFormedFields, Bool.and_eq_true, Bool.and_eq_true,
      decide_eq_true_eq] at hwf
    refine hopen.ended_of_run ?_
    obtain ⟨s, hrun, hended⟩ := run_pretty v hwf.2.1 (level + 1) (.field [] key :: stack)
      (open_field [] key stack)
    show run ⟨.firstKey, .fields [] :: stack⟩ (newline indent (level + 1) ++
      (asciiString key ++ ':' :: ' ' ::
        (pretty indent (level + 1) v ++ prettyFields indent level rest))) = _
    rw [run_append, run_newline rfl rfl, Option.bind_some, run_append,
      run_asciiString_key (.inl rfl), Option.bind_some]
    show run ⟨.value, .field [] key :: stack⟩
      (pretty indent (level + 1) v ++ prettyFields indent level rest) = _
    rw [run_append, hrun, Option.bind_some,
      run_prettyFields rest hwf.2.2 level stack [] key v s hended hwf.1]
    rfl

theorem run_prettyItems : ∀ (rest : List Value), wellFormedItems rest = true →
    ∀ level stack xs v s, Ended (.items xs :: stack) v s →
      run s (prettyItems indent level rest) = complete stack (.arr (xs ++ v :: rest))
  | [], _, level, stack, xs, v, s, hended => by
    rw [prettyItems, run_append, hended.run_newline rfl, Option.bind_some, run_singleton]
    rfl
  | u :: rest, hwf, level, stack, xs, v, s, hended => by
    rw [wellFormedItems, Bool.and_eq_true] at hwf
    have hstep : step s ',' = some ⟨.value, .items (xs ++ [v]) :: stack⟩ :=
      hended.step_eq rfl rfl (by decide)
    obtain ⟨s', hrun, hended'⟩ := run_pretty u hwf.1 (level + 1) (.items (xs ++ [v]) :: stack)
      (open_items _ stack)
    rw [prettyItems, run_cons, hstep, Option.bind_some, run_append, run_newline rfl rfl,
      Option.bind_some, run_append, hrun, Option.bind_some,
      run_prettyItems rest hwf.2 level stack (xs ++ [v]) u s' hended', List.append_assoc]
    rfl

theorem run_prettyFields : ∀ (rest : List (String × Value)), wellFormedFields rest = true →
    ∀ level stack fs key v s, Ended (.field fs key :: stack) v s →
      ((fs ++ (key, v) :: rest).map Prod.fst).Nodup →
      run s (prettyFields indent level rest) = complete stack (.obj (fs ++ (key, v) :: rest))
  | [], _, level, stack, fs, key, v, s, hended, hnodup => by
    rw [prettyFields, run_append, hended.run_newline rfl, Option.bind_some, run_singleton,
      ← setField_of_notMem v (notMem_of_nodup hnodup)]
    rfl
  | (key', v') :: rest, hwf, level, stack, fs, key, v, s, hended, hnodup => by
    rw [wellFormedFields, Bool.and_eq_true] at hwf
    have hstep : step s ',' = some ⟨.key, .fields (fs ++ [(key, v)]) :: stack⟩ := by
      rw [← setField_of_notMem v (notMem_of_nodup hnodup)]
      exact hended.step_eq rfl rfl (by decide)
    obtain ⟨s', hrun, hended'⟩ := run_pretty v' hwf.1 (level + 1)
      (.field (fs ++ [(key, v)]) key' :: stack) (open_field _ key' stack)
    rw [prettyFields, run_cons, hstep, Option.bind_some, run_append, run_newline rfl rfl,
      Option.bind_some, run_append, run_asciiString_key (.inr rfl), Option.bind_some]
    show run ⟨.value, .field (fs ++ [(key, v)]) key' :: stack⟩
      (pretty indent (level + 1) v' ++ prettyFields indent level rest) = _
    rw [run_append, hrun, Option.bind_some,
      run_prettyFields rest hwf.2 level stack (fs ++ [(key, v)]) key' v' s' hended'
        (by rwa [List.append_assoc]), List.append_assoc]
    rfl

end

/-- **The round trip** of a text on many lines. -/
theorem loads_pretty (indent : ℕ) (h : v.wellFormed = true) :
    loads (pretty indent 0 v ++ ['\n']) = some v := by
  obtain ⟨s, hrun, hended⟩ := run_pretty v h 0 [] open_nil
  have hend : run s (newline indent 0) = some ⟨.done v, []⟩ := hended.run_newline rfl
  have hline : newline indent 0 = ['\n'] := by
    rw [newline, Nat.mul_zero, List.replicate_zero]
  unfold loads start
  rw [run_append, hrun, Option.bind_some, ← hline, hend]
  rfl

/-! ### Where an object ends, and what a string begins with -/

theorem prettyFields_last (indent level : ℕ) :
    ∀ rest, ∃ text, prettyFields indent level rest = text ++ ['}'] := by
  intro rest
  induction rest with
  | nil => exact ⟨newline indent level, by rw [prettyFields]⟩
  | cons field rest ih =>
    obtain ⟨key, v⟩ := field
    obtain ⟨text, htext⟩ := ih
    refine ⟨',' :: (newline indent (level + 1) ++ (asciiString key ++ ':' :: ' ' ::
      (pretty indent (level + 1) v ++ text))), ?_⟩
    rw [prettyFields, htext]
    simp

theorem pretty_obj_last (indent level : ℕ) (fields : List (String × Value)) :
    ∃ text, pretty indent level (.obj fields) = text ++ ['}'] := by
  cases fields with
  | nil => exact ⟨['{'], by rw [pretty]; rfl⟩
  | cons field rest =>
    obtain ⟨key, v⟩ := field
    obtain ⟨text, htext⟩ := prettyFields_last indent level rest
    refine ⟨'{' :: (newline indent (level + 1) ++ (asciiString key ++ ':' :: ' ' ::
      (pretty indent (level + 1) v ++ text))), ?_⟩
    rw [pretty, htext]
    simp

/-- A character that stands for itself inside a string. -/
def Plain (c : Char) : Prop := escapeAscii c = [c] ∧ c ≠ '"' ∧ c ≠ '\\'

instance : DecidablePred Plain := fun c =>
  inferInstanceAs (Decidable (escapeAscii c = [c] ∧ c ≠ '"' ∧ c ≠ '\\'))

theorem plain_or_escaped (c : Char) : Plain c ∨ ∃ rest, escapeAscii c = '\\' :: rest := by
  by_cases hquote : c = '"'
  · exact .inr ⟨_, if_pos hquote⟩
  by_cases hbackslash : c = '\\'
  · subst hbackslash
    exact .inr ⟨_, rfl⟩
  by_cases hplain : escapeAscii c = [c]
  · exact .inl ⟨hplain, hquote, hbackslash⟩
  refine .inr ?_
  unfold escapeAscii at hplain ⊢
  rw [if_neg hquote, if_neg hbackslash] at hplain ⊢
  split
  · exact ⟨_, rfl⟩
  split
  · exact ⟨_, rfl⟩
  split
  · exact ⟨_, rfl⟩
  split
  · exact ⟨_, rfl⟩
  split
  · exact ⟨_, rfl⟩
  split
  · rename_i hn hr ht hb hf h
    rw [if_neg hn, if_neg hr, if_neg ht, if_neg hb, if_neg hf, if_pos h] at hplain
    exact absurd rfl hplain
  split
  · exact ⟨_, rfl⟩
  · exact ⟨_, rfl⟩

/-- **What a string begins with**: a word that needs no escapes is there when the string has
it. -/
theorem prefix_asciiChars_iff (hword : ∀ c ∈ word, Plain c) (text : List Char) :
    word <+: asciiChars text ↔ word <+: text := by
  induction word generalizing text with
  | nil => exact iff_of_true List.nil_prefix List.nil_prefix
  | cons a word ih =>
    have ha := hword a List.mem_cons_self
    cases text with
    | nil =>
      rw [asciiChars, List.cons_prefix_cons]
      exact iff_of_false (fun h => ha.2.1 h.1)
        fun h => List.cons_ne_nil _ _ (List.prefix_nil.mp h)
    | cons c text =>
      rcases plain_or_escaped c with hc | ⟨rest, hrest⟩
      · rw [asciiChars, hc.1, List.singleton_append, List.cons_prefix_cons,
          List.cons_prefix_cons, ih fun d hd => hword d (List.mem_cons_of_mem _ hd)]
      · rw [asciiChars, hrest, List.cons_append, List.cons_prefix_cons, List.cons_prefix_cons]
        refine iff_of_false (fun h => ha.2.2 h.1) fun h => ?_
        have hescaped := ha.1
        rw [h.1, hrest, List.cons.injEq] at hescaped
        exact ha.2.2 (h.1.trans hescaped.1.symm)

/-- **The whole string**: it ends where a word that needs no escapes does. -/
theorem closed_prefix_asciiChars_iff (hword : ∀ c ∈ word, Plain c)
    (text more rest : List Char) :
    (word ++ '"' :: more) <+: asciiChars text ++ rest ↔ text = word ∧ more <+: rest := by
  induction word generalizing text with
  | nil =>
    cases text with
    | nil =>
      rw [List.nil_append, asciiChars, List.singleton_append, List.cons_prefix_cons]
      exact and_congr_left' (iff_of_true rfl rfl)
    | cons c text =>
      refine iff_of_false (fun h => ?_) fun h => List.cons_ne_nil _ _ h.1
      rcases plain_or_escaped c with hc | ⟨tail, htail⟩
      · rw [asciiChars, hc.1, List.singleton_append, List.nil_append, List.cons_append,
          List.cons_prefix_cons] at h
        exact hc.2.1 h.1.symm
      · rw [asciiChars, htail, List.nil_append, List.cons_append, List.cons_append,
          List.cons_prefix_cons] at h
        exact absurd h.1 (by decide)
  | cons a word ih =>
    have ha := hword a List.mem_cons_self
    cases text with
    | nil =>
      rw [asciiChars, List.singleton_append, List.cons_append, List.cons_prefix_cons]
      exact iff_of_false (fun h => ha.2.1 h.1) fun h => List.cons_ne_nil _ _ h.1.symm
    | cons c text =>
      rcases plain_or_escaped c with hc | ⟨tail, htail⟩
      · rw [asciiChars, hc.1, List.singleton_append, List.cons_append, List.cons_append,
          List.cons_prefix_cons, ih fun d hd => hword d (List.mem_cons_of_mem _ hd),
          List.cons.injEq, ← and_assoc]
        exact and_congr_left' (and_congr_left' eq_comm)
      · rw [asciiChars, htail, List.cons_append, List.cons_append, List.cons_append,
          List.cons_prefix_cons]
        refine iff_of_false (fun h => ha.2.2 h.1) fun h => ?_
        obtain ⟨rfl, -⟩ := List.cons.inj h.1
        have hescaped := ha.1
        rw [htail, List.cons.injEq] at hescaped
        exact ha.2.2 hescaped.1.symm

theorem quote_prefix_pretty_iff {indent level : ℕ} {rest : List Char} :
    ['"'] <+: pretty indent level v ++ rest ↔ ∃ s, v = .str s := by
  have hother {c : Char} (hc : '"' ≠ c) (text : List Char) : ¬['"'] <+: c :: text ++ rest := by
    rw [List.cons_append, List.cons_prefix_cons]
    exact fun h => hc h.1
  have hnumber : ∀ text, NumberText text → ¬['"'] <+: text ++ rest := by
    intro text htext
    obtain ⟨c, text, rfl, hc⟩ := htext.head
    refine hother ?_ text
    rintro rfl
    exact absurd hc (by decide)
  cases v with
  | null => exact iff_of_false (hother (by decide) _) nofun
  | bool b => cases b <;> exact iff_of_false (hother (by decide) _) nofun
  | int n => exact iff_of_false (hnumber _ (numberText_intText n)) nofun
  | float text => exact iff_of_false (hnumber _ (numberText_float text)) nofun
  | nonFinite n => cases n <;> exact iff_of_false (hother (by decide) _) nofun
  | str s => exact iff_of_true (List.cons_prefix_cons.mpr ⟨rfl, List.nil_prefix⟩) ⟨s, rfl⟩
  | arr items => cases items <;> exact iff_of_false (hother (by decide) _) nofun
  | obj fields => cases fields <;> exact iff_of_false (hother (by decide) _) nofun

/-- The characters of a string up to the first quote. -/
def unquoted (s : String) : List Char := (asciiChars s.toList).takeWhile (· ≠ '"')

theorem quote_mem_asciiChars (chars : List Char) : '"' ∈ asciiChars chars := by
  induction chars with
  | nil => exact List.mem_singleton.mpr rfl
  | cons c chars ih => exact List.mem_append_right _ ih

theorem takeWhile_asciiChars (s : String) (rest : List Char) :
    (asciiChars s.toList ++ rest).takeWhile (· ≠ '"') = unquoted s := by
  rw [List.takeWhile_append, if_neg, unquoted]
  intro hlength
  have hall := List.takeWhile_eq_self_iff.mp ((List.takeWhile_prefix _).eq_of_length hlength)
  exact absurd (hall _ (quote_mem_asciiChars s.toList)) (by decide)

theorem takeWhile_quote {rest : List Char} (h : ∀ c ∈ word, c ≠ '"') :
    (word ++ '"' :: rest).takeWhile (· ≠ '"') = word := by
  rw [List.takeWhile_append_of_pos fun c hc => decide_eq_true (h c hc),
    List.takeWhile_cons_of_neg (by decide), List.append_nil]

theorem unquoted_eq_iff {s : String} (hword : ∀ c ∈ word, Plain c) :
    unquoted s = word ↔ s.toList = word := by
  constructor
  · rintro rfl
    obtain ⟨before, rest, hsplit, hbefore⟩ :=
      List.eq_append_cons_of_mem (quote_mem_asciiChars s.toList)
    have hunquoted : unquoted s = before := by
      rw [unquoted, hsplit, takeWhile_quote fun c hc heq => hbefore (heq ▸ hc)]
    refine ((closed_prefix_asciiChars_iff hword _ rest []).mp ?_).1
    exact ⟨[], by rw [hunquoted, hsplit, List.append_nil]⟩
  · intro heq
    obtain ⟨rest, hrest⟩ := (closed_prefix_asciiChars_iff hword _ [] []).mpr
      ⟨heq, List.nil_prefix⟩
    rw [List.append_nil, List.append_assoc] at hrest
    rw [unquoted, ← hrest]
    exact takeWhile_quote fun c hc => (hword c hc).2.1

theorem prefix_unquoted_iff {s : String} (hword : ∀ c ∈ word, Plain c) :
    word <+: unquoted s ↔ word <+: s.toList := by
  rw [← prefix_asciiChars_iff hword s.toList]
  constructor
  · exact fun h => h.trans (List.takeWhile_prefix _)
  · rintro ⟨rest, hrest⟩
    rw [unquoted, ← hrest,
      List.takeWhile_append_of_pos fun c hc => decide_eq_true (hword c hc).2.1]
    exact List.prefix_append _ _

end Json
