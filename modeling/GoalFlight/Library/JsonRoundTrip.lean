import GoalFlight.Library.Json
import Mathlib.Data.List.TakeWhile
import Mathlib.Tactic.IntervalCases

/-!
# JSON texts: the round trip

`loads_dumps`: the decoder gives back the value of a text the encoder wrote.  A number
ends only with the character after it, so what the decoder knows at the end of a value's
text is `Ended`: the value is complete, or its number is still open.
-/

namespace Json

variable {c : Char} {v : Value} {text : List Char} {stack : List Frame}

/-! ### Numbers -/

theorem isNumberChar_of_isDigit (h : c.isDigit = true) : isNumberChar c = true := by
  unfold isNumberChar
  rw [h]
  rfl

theorem head?_toDigits {n : ℕ} (h : 0 < n) : (Nat.toDigits 10 n).head? ≠ some '0' := by
  induction n using Nat.base_induction 10 (by decide) with
  | single m hm =>
    rw [Nat.toDigits_of_lt_base hm]
    intro hzero
    have hdigit : Nat.digitChar m = '0' := Option.some.inj hzero
    exact absurd (Nat.digitChar_eq_zero.mp hdigit) (Nat.ne_of_gt h)
  | digit m k hk hm ih =>
    rw [← Nat.toDigits_append_toDigits (by decide) hm hk, List.head?_append]
    intro hzero
    rw [Option.or_eq_some_iff] at hzero
    rcases hzero with hfirst | ⟨hnone, -⟩
    · exact ih hm hfirst
    · exact absurd (List.head?_eq_none_iff.mp hnone) Nat.toDigits_ne_nil

theorem isIntDigits_toDigits (n : ℕ) : isIntDigits (Nat.toDigits 10 n) = true := by
  unfold isIntDigits
  rcases Nat.eq_zero_or_pos n with rfl | hpos
  · rfl
  · have hall : (Nat.toDigits 10 n).all Char.isDigit = true :=
      List.all_eq_true.mpr fun c hc => Nat.isDigit_of_mem_toDigits (by decide) (by decide) hc
    have hhead := head?_toDigits hpos
    simp [hall, hhead]

theorem dropSign_intText (n : ℤ) : dropSign (intText n) = Nat.toDigits 10 n.natAbs := by
  unfold intText
  split
  · rfl
  · -- The first digit is no sign.
    have hdigits : ∀ c ∈ Nat.toDigits 10 n.natAbs, c.isDigit = true :=
      fun c hc => Nat.isDigit_of_mem_toDigits (by decide) (by decide) hc
    unfold dropSign
    split
    · rename_i text heq
      have hminus := hdigits '-' (by rw [heq]; exact List.mem_cons_self)
      exact absurd hminus (by decide)
    · rfl

theorem not_isFloatText_intText (n : ℤ) : isFloatText (intText n) = false := by
  have hdigits : ∀ c ∈ Nat.toDigits 10 n.natAbs, c.isDigit = true :=
    fun c hc => Nat.isDigit_of_mem_toDigits (by decide) (by decide) hc
  unfold isFloatText
  rw [dropSign_intText, List.dropWhile_eq_nil_iff.mpr hdigits]
  exact Bool.and_false _

theorem numberValue_intText (n : ℤ) : numberValue (intText n) = some (.int n) := by
  unfold numberValue
  rw [dif_neg (by rw [not_isFloatText_intText]; exact Bool.false_ne_true), if_pos]
  · rw [dropSign_intText, Nat.ofDigitChars_ten_toDigits]
    have hsign : ((intText n).head? = some '-') ↔ n < 0 := by
      unfold intText
      split
      · rename_i hneg
        exact ⟨fun _ => hneg, fun _ => rfl⟩
      · rename_i hnonneg
        refine ⟨fun hhead => ?_, fun hneg => absurd hneg hnonneg⟩
        have hminus := Nat.isDigit_of_mem_toDigits (by decide) (by decide)
          (List.mem_of_head? hhead)
        exact absurd hminus (by decide)
    simp only [hsign]
    congr 2
    split <;> omega
  · unfold isIntText
    rw [dropSign_intText]
    exact isIntDigits_toDigits _

theorem numberValue_float (text : FloatText) : numberValue text.1 = some (.float text) :=
  dif_pos text.2

theorem dropSign_of_ne {rest : List Char} (h : c ≠ '-') :
    dropSign (c :: rest) = c :: rest := by
  unfold dropSign
  split
  · rename_i heq
    exact absurd (List.cons.inj heq).1 h
  · rfl

/-- What the decoder can read as a number from its first character on. -/
structure NumberText (text : List Char) : Prop where
  chars : ∀ c ∈ text, isNumberChar c = true
  head : ∃ c rest, text = c :: rest ∧ (c = '-' ∨ c.isDigit = true)

theorem numberText_intText (n : ℤ) : NumberText (intText n) := by
  have hdigits : ∀ c ∈ Nat.toDigits 10 n.natAbs, c.isDigit = true :=
    fun c hc => Nat.isDigit_of_mem_toDigits (by decide) (by decide) hc
  obtain ⟨d, ds, hds⟩ := List.exists_cons_of_ne_nil
    (Nat.toDigits_ne_nil (n := n.natAbs) (b := 10))
  have hhead : d.isDigit = true := hdigits d (by rw [hds]; exact List.mem_cons_self)
  unfold intText
  split
  · refine ⟨fun c hc => ?_, ⟨'-', _, rfl, .inl rfl⟩⟩
    rcases List.mem_cons.mp hc with rfl | hrest
    · rfl
    · exact isNumberChar_of_isDigit (hdigits c hrest)
  · exact ⟨fun c hc => isNumberChar_of_isDigit (hdigits c hc), ⟨d, ds, hds, .inr hhead⟩⟩

theorem isNumberChar_of_isExponent (h : isExponent text = true) :
    ∀ c ∈ text, isNumberChar c = true := by
  cases text with
  | nil => cases h
  | cons e rest =>
    simp only [isExponent, Bool.and_eq_true, Bool.or_eq_true, decide_eq_true_eq] at h
    obtain ⟨⟨he, -⟩, hdigits⟩ := h
    rw [List.all_eq_true] at hdigits
    intro c hc
    rcases List.mem_cons.mp hc with rfl | hrest
    · rcases he with rfl | rfl <;> rfl
    · split at hdigits
      · rcases List.mem_cons.mp hrest with rfl | hdigit
        · rfl
        · exact isNumberChar_of_isDigit (hdigits c hdigit)
      · rcases List.mem_cons.mp hrest with rfl | hdigit
        · rfl
        · exact isNumberChar_of_isDigit (hdigits c hdigit)
      · exact isNumberChar_of_isDigit (hdigits c hrest)

theorem isNumberChar_of_isFraction (h : isFraction text = true) :
    ∀ c ∈ text, isNumberChar c = true := by
  unfold isFraction at h
  split at h
  · rename_i rest
    simp only [Bool.and_eq_true, Bool.or_eq_true, decide_eq_true_eq] at h
    intro c hc
    rcases List.mem_cons.mp hc with rfl | hrest
    · rfl
    · rw [← List.takeWhile_append_dropWhile (p := Char.isDigit) (l := rest),
        List.mem_append] at hrest
      rcases hrest with hdigit | hexponent
      · exact isNumberChar_of_isDigit (List.mem_takeWhile_imp hdigit)
      · rcases h.2 with hnil | hexp
        · rw [hnil] at hexponent
          cases hexponent
        · exact isNumberChar_of_isExponent hexp c hexponent
  · exact isNumberChar_of_isExponent h

theorem numberText_float (text : FloatText) : NumberText text.1 := by
  obtain ⟨text, hfloat⟩ := text
  show NumberText text
  unfold isFloatText at hfloat
  rw [Bool.and_eq_true] at hfloat
  obtain ⟨hdigits, hfraction⟩ := hfloat
  have hbody : ∀ c ∈ dropSign text, isNumberChar c = true := by
    intro c hc
    rw [← List.takeWhile_append_dropWhile (p := Char.isDigit) (l := dropSign text),
      List.mem_append] at hc
    rcases hc with hdigit | hrest
    · exact isNumberChar_of_isDigit (List.mem_takeWhile_imp hdigit)
    · exact isNumberChar_of_isFraction hfraction c hrest
  cases text with
  | nil => exact absurd hdigits (by decide)
  | cons c rest =>
    by_cases hminus : c = '-'
    · subst hminus
      refine ⟨fun c hc => ?_, ⟨'-', rest, rfl, .inl rfl⟩⟩
      rcases List.mem_cons.mp hc with rfl | hrest
      · rfl
      · exact hbody c hrest
    · -- The digits of the integer part come first.
      rw [dropSign_of_ne hminus] at hdigits hbody
      refine ⟨hbody, ⟨c, rest, rfl, .inr ?_⟩⟩
      by_contra hdigit
      rw [List.takeWhile_cons_of_neg hdigit] at hdigits
      exact absurd hdigits (by decide)

theorem run_number {before : List Char} (h : ∀ c ∈ text, isNumberChar c = true) :
    run ⟨.number before, stack⟩ text = some ⟨.number (before ++ text), stack⟩ := by
  induction text generalizing before with
  | nil => rw [List.append_nil, run_nil]
  | cons c text ih =>
    have hstep : step ⟨.number before, stack⟩ c = some ⟨.number (before ++ [c]), stack⟩ :=
      if_pos (h c List.mem_cons_self)
    rw [run_cons, hstep, Option.bind_some, ih fun d hd => h d (List.mem_cons_of_mem _ hd),
      List.append_assoc, List.singleton_append]

theorem ne_of_isDigit {d : Char} (hc : c.isDigit = true) (hd : d.isDigit = false) : c ≠ d := by
  rintro rfl
  rw [hc] at hd
  cases hd

theorem NumberText.run_value (h : NumberText text) (stack : List Frame) :
    run ⟨.value, stack⟩ text = some ⟨.number text, stack⟩ := by
  obtain ⟨c, rest, rfl, hfirst⟩ := h.head
  have hstep : step ⟨.value, stack⟩ c = some ⟨.number [c], stack⟩ := by
    show stepValue stack c = _
    rcases hfirst with rfl | hdigit
    · rfl
    · have hblank : isBlank c = false := by
        unfold isBlank
        simp [ne_of_isDigit hdigit (d := ' ') rfl, ne_of_isDigit hdigit (d := '\t') rfl,
          ne_of_isDigit hdigit (d := '\n') rfl, ne_of_isDigit hdigit (d := '\r') rfl]
      unfold stepValue
      rw [hblank, if_neg Bool.false_ne_true, if_neg (ne_of_isDigit hdigit rfl),
        if_neg (ne_of_isDigit hdigit rfl), if_neg (ne_of_isDigit hdigit rfl),
        if_pos (.inr hdigit)]
  rw [run_cons, hstep, Option.bind_some,
    run_number fun d hd => h.chars d (List.mem_cons_of_mem _ hd), List.singleton_append]

/-! ### Strings -/

theorem run_escape_control (stack : List Frame) (chars : List Char) :
    ∀ n < 32, run ⟨.hex chars none [], stack⟩
      ['0', '0', Nat.digitChar (n / 16), Nat.digitChar (n % 16)] =
        some ⟨.str (chars ++ [Char.ofNat n]), stack⟩ := by
  intro n hn
  interval_cases n <;> rfl

theorem run_escapeChar (stack : List Frame) (chars : List Char) (c : Char) :
    run ⟨.str chars, stack⟩ (escapeChar c) = some ⟨.str (chars ++ [c]), stack⟩ := by
  by_cases hquote : c = '"'
  · subst hquote
    rfl
  by_cases hbackslash : c = '\\'
  · subst hbackslash
    rfl
  by_cases hcontrol : c.toNat < 32
  · have hofNat : Char.ofNat c.toNat = c := Char.ofNat_toNat c
    unfold escapeChar
    rw [if_neg hquote, if_neg hbackslash]
    by_cases hn : c = '\n'
    · subst hn
      rfl
    by_cases hr : c = '\r'
    · subst hr
      rfl
    by_cases ht : c = '\t'
    · subst ht
      rfl
    rw [if_neg hn, if_neg hr, if_neg ht]
    by_cases hb : c.toNat = 8
    · rw [if_pos hb, ← hofNat, hb]
      rfl
    by_cases hf : c.toNat = 12
    · rw [if_neg hb, if_pos hf, ← hofNat, hf]
      rfl
    rw [if_neg hb, if_neg hf, if_pos hcontrol]
    show run ⟨.hex chars none [], stack⟩ _ = _
    rw [run_escape_control stack chars c.toNat hcontrol, hofNat]
  · have hplain : escapeChar c = [c] := by
      have hne : ∀ d : Char, d.toNat < 32 → c ≠ d := by
        rintro d hd rfl
        exact hcontrol hd
      unfold escapeChar
      rw [if_neg hquote, if_neg hbackslash, if_neg (hne '\n' (by decide)),
        if_neg (hne '\r' (by decide)), if_neg (hne '\t' (by decide)), if_neg (by omega),
        if_neg (by omega), if_neg hcontrol]
    have hstep : step ⟨.str chars, stack⟩ c = some ⟨.str (chars ++ [c]), stack⟩ := by
      unfold step
      simp only
      rw [if_neg hquote, if_neg hbackslash, if_neg hcontrol]
    rw [hplain, run_cons, hstep]
    rfl

theorem run_dumpsChars (stack : List Frame) (chars text : List Char) :
    run ⟨.str chars, stack⟩ (dumpsChars text) = completeString stack (chars ++ text) := by
  induction text generalizing chars with
  | nil =>
    have hstep : step ⟨.str chars, stack⟩ '"' = completeString stack chars := rfl
    rw [dumpsChars, run_singleton, hstep, List.append_nil]
  | cons c text ih =>
    rw [dumpsChars, run_append, run_escapeChar, Option.bind_some, ih, List.append_assoc,
      List.singleton_append]

theorem run_dumpsString_key {mode : Mode} (hmode : mode = .firstKey ∨ mode = .key)
    (fs : List (String × Value)) (rest : List Frame) (key : String) :
    run ⟨mode, .fields fs :: rest⟩ (dumpsString key) = some ⟨.colon, .field fs key :: rest⟩ := by
  have hstep : step ⟨mode, .fields fs :: rest⟩ '"' = some ⟨.str [], .fields fs :: rest⟩ := by
    rcases hmode with rfl | rfl <;> rfl
  rw [dumpsString, run_cons, hstep, Option.bind_some, run_dumpsChars, List.nil_append]
  show some (Config.mk .colon (.field fs (String.ofList key.toList) :: rest)) = _
  rw [String.ofList_toList]

/-! ### Values -/

/-- A place where a value can stand. -/
def Open (stack : List Frame) : Prop := ∀ fs rest, stack ≠ .fields fs :: rest

/-- The decoder at the end of a value's text: the value is complete, or the number of its
text is open. -/
inductive Ended (stack : List Frame) (v : Value) : Config → Prop
  | closed {s : Config} (h : complete stack v = some s) : Ended stack v s
  | number {text : List Char} (h : numberValue text = some v) :
      Ended stack v ⟨.number text, stack⟩

theorem Ended.step_eq {s s' : Config} (h : Ended stack v s) (hs' : complete stack v = some s')
    (hc : isNumberChar c = false) (hI : c ≠ 'I') :
    step s c = stepAfter s' c := by
  cases h with
  | closed hclosed =>
    obtain rfl : s = s' := Option.some.inj (hclosed.symm.trans hs')
    unfold complete at hclosed
    split at hclosed
    · cases hclosed
      rfl
    · cases hclosed
      rfl
    · cases hclosed
      rfl
    · cases hclosed
  | number hnumber =>
    unfold step
    simp only
    rw [hc, if_neg Bool.false_ne_true, if_neg (fun hand => hI hand.2), hnumber, Option.bind_some,
      hs']

theorem Ended.finish_eq {s : Config} (h : Ended [] v s) : finish s = some v := by
  cases h with
  | closed hclosed =>
    cases hclosed
    rfl
  | number hnumber => exact hnumber

theorem run_firstItem (v : Value) (stack : List Frame) :
    run ⟨.firstItem, stack⟩ (dumps v) = run ⟨.value, stack⟩ (dumps v) := by
  have hfirst : ∀ c rest, isBlank c = false → c ≠ ']' →
      run ⟨.firstItem, stack⟩ (c :: rest) = run ⟨.value, stack⟩ (c :: rest) := by
    intro c rest hblank hbracket
    have hstep : step ⟨.firstItem, stack⟩ c = stepValue stack c := by
      unfold step
      simp only
      rw [hblank, if_neg Bool.false_ne_true, if_neg hbracket]
    rw [run_cons, run_cons, hstep]
    rfl
  have hnumber : ∀ text, NumberText text →
      run ⟨.firstItem, stack⟩ text = run ⟨.value, stack⟩ text := by
    intro text htext
    obtain ⟨c, rest, rfl, hc⟩ := htext.head
    have hne : ∀ d : Char, d ≠ '-' → d.isDigit = false → c ≠ d := by
      rintro d hminus hdigit rfl
      rcases hc with rfl | hisDigit
      · exact hminus rfl
      · rw [hdigit] at hisDigit
        cases hisDigit
    refine hfirst c rest ?_ (hne ']' (by decide) rfl)
    unfold isBlank
    simp [hne ' ' (by decide) rfl, hne '\t' (by decide) rfl, hne '\n' (by decide) rfl,
      hne '\r' (by decide) rfl]
  cases v with
  | null => exact hfirst _ _ rfl (by decide)
  | bool b => cases b <;> exact hfirst _ _ rfl (by decide)
  | int n => exact hnumber _ (numberText_intText n)
  | float text => exact hnumber _ (numberText_float text)
  | nonFinite n => cases n <;> exact hfirst _ _ rfl (by decide)
  | str s => exact hfirst _ _ rfl (by decide)
  | arr items => cases items <;> exact hfirst _ _ rfl (by decide)
  | obj fields => cases fields <;> exact hfirst _ _ rfl (by decide)

theorem open_items (xs : List Value) (stack : List Frame) : Open (.items xs :: stack) := by
  intro fs rest heq
  cases heq

theorem open_field (fs : List (String × Value)) (key : String) (stack : List Frame) :
    Open (.field fs key :: stack) := by
  intro fs' rest heq
  cases heq

theorem run_word (stack : List Frame) (v : Value) (c : Char) (rest : List Char) :
    run ⟨.word (c :: rest) v, stack⟩ (c :: rest) = complete stack v := by
  induction rest generalizing c with
  | nil =>
    have hstep : step ⟨.word [c] v, stack⟩ c = complete stack v := if_pos rfl
    rw [run_singleton, hstep]
  | cons d rest ih =>
    have hstep : step ⟨.word (c :: d :: rest) v, stack⟩ c = some ⟨.word (d :: rest) v, stack⟩ :=
      if_pos rfl
    rw [run_cons, hstep, Option.bind_some, ih]

theorem Open.completeString_eq (h : Open stack) (s : String) :
    completeString stack s.toList = complete stack (.str s) := by
  unfold completeString
  split
  · rename_i fs rest
    exact absurd rfl (h fs rest)
  · rw [String.ofList_toList]

theorem Open.exists_complete (h : Open stack) (v : Value) :
    ∃ s, complete stack v = some s := by
  unfold complete
  split
  · exact ⟨_, rfl⟩
  · exact ⟨_, rfl⟩
  · exact ⟨_, rfl⟩
  · rename_i fs rest
    exact absurd rfl (h fs rest)

theorem Open.ended_of_run (h : Open stack)
    (hrun : run ⟨.value, stack⟩ text = complete stack v) :
    ∃ s, run ⟨.value, stack⟩ text = some s ∧ Ended stack v s := by
  obtain ⟨s, hs⟩ := h.exists_complete v
  exact ⟨s, hrun.trans hs, .closed hs⟩

mutual

theorem run_dumps : ∀ (v : Value), v.wellFormed = true → ∀ stack, Open stack →
    ∃ s, run ⟨.value, stack⟩ (dumps v) = some s ∧ Ended stack v s
  | .null, _, stack, hopen => hopen.ended_of_run (run_word stack .null 'u' ['l', 'l'])
  | .bool true, _, stack, hopen => hopen.ended_of_run (run_word stack (.bool true) 'r' ['u', 'e'])
  | .bool false, _, stack, hopen =>
    hopen.ended_of_run (run_word stack (.bool false) 'a' ['l', 's', 'e'])
  | .nonFinite .nan, _, stack, hopen =>
    hopen.ended_of_run (run_word stack (.nonFinite .nan) 'a' ['N'])
  | .nonFinite .infinity, _, stack, hopen =>
    hopen.ended_of_run (run_word stack (.nonFinite .infinity) 'n' ['f', 'i', 'n', 'i', 't', 'y'])
  | .nonFinite .negInfinity, _, stack, hopen =>
    hopen.ended_of_run
      (run_word stack (.nonFinite .negInfinity) 'n' ['f', 'i', 'n', 'i', 't', 'y'])
  | .int n, _, stack, _ =>
    ⟨_, (numberText_intText n).run_value stack, .number (numberValue_intText n)⟩
  | .float text, _, stack, _ =>
    ⟨_, (numberText_float text).run_value stack, .number (numberValue_float text)⟩
  | .str s, _, stack, hopen => by
    refine hopen.ended_of_run ?_
    rw [← hopen.completeString_eq]
    exact run_dumpsChars stack [] s.toList
  | .arr [], _, stack, hopen =>
    hopen.ended_of_run (run_singleton ⟨.firstItem, .items [] :: stack⟩ ']')
  | .arr (v :: rest), hwf, stack, hopen => by
    rw [Value.wellFormed, wellFormedItems, Bool.and_eq_true] at hwf
    refine hopen.ended_of_run ?_
    obtain ⟨s, hrun, hended⟩ := run_dumps v hwf.1 (.items [] :: stack) (open_items [] stack)
    show run ⟨.firstItem, .items [] :: stack⟩ (dumps v ++ dumpsItems rest) = _
    rw [run_append, run_firstItem, hrun, Option.bind_some,
      run_dumpsItems rest hwf.2 stack [] v s hended]
    rfl
  | .obj [], _, stack, hopen =>
    hopen.ended_of_run (run_singleton ⟨.firstKey, .fields [] :: stack⟩ '}')
  | .obj ((key, v) :: rest), hwf, stack, hopen => by
    rw [Value.wellFormed, wellFormedFields, Bool.and_eq_true, Bool.and_eq_true,
      decide_eq_true_eq] at hwf
    refine hopen.ended_of_run ?_
    obtain ⟨s, hrun, hended⟩ := run_dumps v hwf.2.1 (.field [] key :: stack)
      (open_field [] key stack)
    show run ⟨.firstKey, .fields [] :: stack⟩
      (dumpsString key ++ ':' :: (dumps v ++ dumpsFields rest)) = _
    rw [run_append, run_dumpsString_key (.inl rfl), Option.bind_some, run_cons]
    show run ⟨.value, .field [] key :: stack⟩ (dumps v ++ dumpsFields rest) = _
    rw [run_append, hrun, Option.bind_some,
      run_dumpsFields rest hwf.2.2 stack [] key v s hended hwf.1]
    rfl

theorem run_dumpsItems : ∀ (rest : List Value), wellFormedItems rest = true →
    ∀ stack xs v s, Ended (.items xs :: stack) v s →
      run s (dumpsItems rest) = complete stack (.arr (xs ++ v :: rest))
  | [], _, stack, xs, v, s, hended => by
    have hstep : step s ']' = complete stack (.arr (xs ++ [v])) :=
      hended.step_eq rfl rfl (by decide)
    rw [dumpsItems, run_singleton, hstep]
  | u :: rest, hwf, stack, xs, v, s, hended => by
    rw [wellFormedItems, Bool.and_eq_true] at hwf
    have hstep : step s ',' = some ⟨.value, .items (xs ++ [v]) :: stack⟩ :=
      hended.step_eq rfl rfl (by decide)
    obtain ⟨s', hrun, hended'⟩ := run_dumps u hwf.1 (.items (xs ++ [v]) :: stack)
      (open_items _ stack)
    rw [dumpsItems, run_cons, hstep, Option.bind_some, run_append, hrun, Option.bind_some,
      run_dumpsItems rest hwf.2 stack (xs ++ [v]) u s' hended', List.append_assoc]
    rfl

theorem run_dumpsFields : ∀ (rest : List (String × Value)), wellFormedFields rest = true →
    ∀ stack fs key v s, Ended (.field fs key :: stack) v s →
      ((fs ++ (key, v) :: rest).map Prod.fst).Nodup →
      run s (dumpsFields rest) = complete stack (.obj (fs ++ (key, v) :: rest))
  | [], _, stack, fs, key, v, s, hended, hnodup => by
    have hnew : key ∉ fs.map Prod.fst := by
      rw [List.map_append, List.nodup_append] at hnodup
      intro hmem
      exact hnodup.2.2 key hmem key (List.mem_map_of_mem List.mem_cons_self) rfl
    have hstep : step s '}' = complete stack (.obj (setField fs key v)) :=
      hended.step_eq rfl rfl (by decide)
    rw [dumpsFields, run_singleton, hstep, setField_of_notMem v hnew]
  | (key', v') :: rest, hwf, stack, fs, key, v, s, hended, hnodup => by
    rw [wellFormedFields, Bool.and_eq_true] at hwf
    have hnew : key ∉ fs.map Prod.fst := by
      rw [List.map_append, List.nodup_append] at hnodup
      intro hmem
      exact hnodup.2.2 key hmem key (List.mem_map_of_mem List.mem_cons_self) rfl
    have hstep : step s ',' = some ⟨.key, .fields (fs ++ [(key, v)]) :: stack⟩ := by
      rw [← setField_of_notMem v hnew]
      exact hended.step_eq rfl rfl (by decide)
    obtain ⟨s', hrun, hended'⟩ := run_dumps v' hwf.1 (.field (fs ++ [(key, v)]) key' :: stack)
      (open_field _ key' stack)
    rw [dumpsFields, run_cons, hstep, Option.bind_some, run_append,
      run_dumpsString_key (.inr rfl), Option.bind_some, run_cons]
    show run ⟨.value, .field (fs ++ [(key, v)]) key' :: stack⟩ (dumps v' ++ dumpsFields rest) = _
    rw [run_append, hrun, Option.bind_some,
      run_dumpsFields rest hwf.2 stack (fs ++ [(key, v)]) key' v' s' hended'
        (by rwa [List.append_assoc]), List.append_assoc]
    rfl

end

theorem open_nil : Open [] := by
  intro fs rest heq
  cases heq

/-- **The round trip.** -/
theorem loads_dumps (h : v.wellFormed = true) : loads (dumps v) = some v := by
  obtain ⟨s, hrun, hended⟩ := run_dumps v h [] open_nil
  unfold loads start
  rw [hrun, Option.bind_some, hended.finish_eq]

end Json
