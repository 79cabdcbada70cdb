import GoalFlight.Library.JsonRoundTrip
import Mathlib.Data.List.Induction

/-!
# JSON texts: cut and glued

What becomes of the text of an object when it is cut short, and when other text stands
before it.

* No character of an encoded text is a control character (`dumps_noControl`).
* A text that is cut is no JSON text (`finish_of_cut`), and neither is the text before a
  character that only a string can hold (`loads_before_wide`).
* Text before it must be blank (`loads_junction`).
-/

namespace Json

variable {c : Char} {v : Value} {s s' t : Config} {chars p q tail : List Char}
  {stack : List Frame}

/-! ### Control characters -/

theorem noControl_of_isNumberChar (h : isNumberChar c = true) : 32 ≤ c.toNat := by
  unfold isNumberChar at h
  simp only [Bool.or_eq_true, decide_eq_true_eq] at h
  rcases h with ((((hdigit | rfl) | rfl) | rfl) | rfl) | rfl
  · have hlow : '0'.toNat ≤ c.toNat := by
      unfold Char.isDigit at hdigit
      rw [Bool.and_eq_true, decide_eq_true_eq] at hdigit
      exact hdigit.1
    exact le_trans (by decide) hlow
  all_goals decide

theorem noControl_digitChar : ∀ n < 16, 32 ≤ (Nat.digitChar n).toNat := by decide

theorem noControl_escapeChar (c : Char) : ∀ d ∈ escapeChar c, 32 ≤ d.toNat := by
  have hpair : ∀ e : Char, 32 ≤ e.toNat → ∀ d ∈ ['\\', e], 32 ≤ d.toNat := by
    intro e he d hd
    rcases List.mem_cons.mp hd with rfl | hlast
    · decide
    · rw [List.mem_singleton.mp hlast]
      exact he
  intro d hd
  unfold escapeChar at hd
  split at hd
  · exact hpair _ (by decide) d hd
  split at hd
  · exact hpair _ (by decide) d hd
  split at hd
  · exact hpair _ (by decide) d hd
  split at hd
  · exact hpair _ (by decide) d hd
  split at hd
  · exact hpair _ (by decide) d hd
  split at hd
  · exact hpair _ (by decide) d hd
  split at hd
  · exact hpair _ (by decide) d hd
  split at hd
  · simp only [List.mem_cons, List.not_mem_nil, or_false] at hd
    rcases hd with rfl | rfl | rfl | rfl | rfl | rfl
    · decide
    · decide
    · decide
    · decide
    · exact noControl_digitChar _ (by omega)
    · exact noControl_digitChar _ (by omega)
  · rename_i hcontrol
    rw [List.mem_singleton.mp hd]
    exact Nat.not_lt.mp hcontrol

theorem noControl_dumpsChars (text : List Char) : ∀ d ∈ dumpsChars text, 32 ≤ d.toNat := by
  induction text with
  | nil =>
    intro d hd
    rw [List.mem_singleton.mp hd]
    decide
  | cons c text ih =>
    intro d hd
    rcases List.mem_append.mp hd with hescape | hrest
    · exact noControl_escapeChar c d hescape
    · exact ih d hrest

theorem noControl_dumpsString (s : String) : ∀ d ∈ dumpsString s, 32 ≤ d.toNat := by
  intro d hd
  rcases List.mem_cons.mp hd with rfl | hrest
  · decide
  · exact noControl_dumpsChars s.toList d hrest

mutual

theorem dumps_noControl : ∀ (v : Value), ∀ d ∈ dumps v, 32 ≤ d.toNat
  | .null | .bool true | .bool false | .nonFinite .nan | .nonFinite .infinity
  | .nonFinite .negInfinity | .arr [] | .obj [] => by decide
  | .int n => fun d hd => noControl_of_isNumberChar ((numberText_intText n).chars d hd)
  | .float text => fun d hd => noControl_of_isNumberChar ((numberText_float text).chars d hd)
  | .str s => noControl_dumpsString s
  | .arr (v :: rest) => by
    intro d hd
    rcases List.mem_cons.mp hd with rfl | hbody
    · decide
    rcases List.mem_append.mp hbody with hfirst | hrest
    · exact dumps_noControl v d hfirst
    · exact dumpsItems_noControl rest d hrest
  | .obj ((key, v) :: rest) => by
    intro d hd
    rcases List.mem_cons.mp hd with rfl | hbody
    · decide
    rcases List.mem_append.mp hbody with hkey | hrest
    · exact noControl_dumpsString key d hkey
    rcases List.mem_cons.mp hrest with rfl | hvalue
    · decide
    rcases List.mem_append.mp hvalue with hfirst | hmore
    · exact dumps_noControl v d hfirst
    · exact dumpsFields_noControl rest d hmore

theorem dumpsItems_noControl : ∀ (rest : List Value), ∀ d ∈ dumpsItems rest, 32 ≤ d.toNat
  | [] => by decide
  | v :: rest => by
    intro d hd
    rcases List.mem_cons.mp hd with rfl | hbody
    · decide
    rcases List.mem_append.mp hbody with hfirst | hrest
    · exact dumps_noControl v d hfirst
    · exact dumpsItems_noControl rest d hrest

theorem dumpsFields_noControl : ∀ (rest : List (String × Value)),
    ∀ d ∈ dumpsFields rest, 32 ≤ d.toNat
  | [] => by decide
  | (key, v) :: rest => by
    intro d hd
    rcases List.mem_cons.mp hd with rfl | hbody
    · decide
    rcases List.mem_append.mp hbody with hkey | hrest
    · exact noControl_dumpsString key d hkey
    rcases List.mem_cons.mp hrest with rfl | hvalue
    · decide
    rcases List.mem_append.mp hvalue with hfirst | hmore
    · exact dumps_noControl v d hfirst
    · exact dumpsFields_noControl rest d hmore

end

/-! ### The first and the last character of an object -/

theorem dumpsFields_last : ∀ rest : List (String × Value), ∃ text, dumpsFields rest = text ++ ['}']
  | [] => ⟨[], rfl⟩
  | (key, v) :: rest => by
    obtain ⟨text, htext⟩ := dumpsFields_last rest
    refine ⟨',' :: (dumpsString key ++ ':' :: (dumps v ++ text)), ?_⟩
    rw [dumpsFields, htext]
    simp

theorem dumps_obj_last (fields : List (String × Value)) :
    ∃ text, dumps (.obj fields) = text ++ ['}'] := by
  cases fields with
  | nil => exact ⟨['{'], rfl⟩
  | cons field rest =>
    obtain ⟨text, htext⟩ := dumpsFields_last rest
    refine ⟨'{' :: (dumpsString field.1 ++ ':' :: (dumps field.2 ++ text)), ?_⟩
    obtain ⟨key, v⟩ := field
    rw [dumps, htext]
    simp

theorem dumps_obj_head (fields : List (String × Value)) :
    ∃ text, dumps (.obj fields) = '{' :: text := by
  cases fields with
  | nil => exact ⟨_, rfl⟩
  | cons field rest => exact ⟨_, rfl⟩

/-! ### A text that could end here -/

/-- A configuration in which a text could end, or a number that could become one. -/
inductive Closing : Config → Prop
  | done (v : Value) (stack : List Frame) : Closing ⟨.done v, stack⟩
  | number (text : List Char) (hne : text ≠ []) (hminus : text ≠ ['-']) :
      Closing ⟨.number text, []⟩

theorem closing_of_finish (h : finish s = some v) : Closing s := by
  obtain ⟨mode, stack⟩ := s
  unfold finish at h
  split at h
  · rename_i w hmode
    obtain rfl : mode = .done w := hmode
    exact .done w stack
  · rename_i text hmode hstack
    obtain rfl : mode = .number text := hmode
    obtain rfl : stack = [] := hstack
    refine .number text ?_ ?_
    · rintro rfl
      cases h
    · rintro rfl
      cases h
  · cases h

theorem Closing.step_eq (h : Closing s) (hstep : step s c = some s') :
    Closing s' ∧ c ≠ '}' := by
  have hdone : ∀ v stack, stepAfter ⟨.done v, stack⟩ c = some s' → Closing s' ∧ c ≠ '}' := by
    intro v stack hafter
    unfold stepAfter at hafter
    simp only at hafter
    split at hafter
    · rename_i hblank
      cases hafter
      refine ⟨.done v stack, ?_⟩
      rintro rfl
      exact absurd hblank (by decide)
    · cases hafter
  cases h with
  | done v stack => exact hdone v stack hstep
  | number text hne hminus =>
    unfold step at hstep
    simp only at hstep
    split at hstep
    · rename_i hchar
      cases hstep
      refine ⟨.number _ (by simp) ?_, ?_⟩
      · intro heq
        have hlength := congrArg List.length heq
        rw [List.length_append, List.length_singleton, List.length_singleton] at hlength
        exact hne (List.length_eq_zero_iff.mp (by omega))
      · rintro rfl
        exact absurd hchar (by decide)
    · rw [if_neg fun hand => hminus hand.1] at hstep
      cases hvalue : numberValue text with
      | none =>
        rw [hvalue] at hstep
        cases hstep
      | some v =>
        rw [hvalue] at hstep
        exact hdone v [] hstep

theorem Closing.run_brace (h : Closing s) (text : List Char) :
    run s (text ++ ['}']) = none := by
  induction text generalizing s with
  | nil =>
    rw [List.nil_append, run_singleton]
    cases hstep : step s '}' with
    | none => rfl
    | some s' => exact absurd rfl (h.step_eq hstep).2
  | cons c text ih =>
    rw [List.cons_append, run_cons]
    cases hstep : step s c with
    | none => rfl
    | some s' => exact ih (h.step_eq hstep).1

theorem finish_of_cut {fields : List (String × Value)} (hcut : dumps (.obj fields) = p ++ q)
    (hq : q ≠ []) (hp : run s p = some t) (hrun : run s (dumps (.obj fields)) ≠ none) :
    finish t = none := by
  by_contra hfinish
  obtain ⟨v, hv⟩ := Option.ne_none_iff_exists'.mp hfinish
  obtain ⟨text, htext⟩ := dumps_obj_last fields
  have hq' : ∃ rest, q = rest ++ ['}'] := by
    refine ⟨q.dropLast, ?_⟩
    have hlast : q.getLast hq = '}' := by
      have hboth : (p ++ q).getLast (by simp [hq]) = '}' := by
        simp only [← hcut, htext]
        exact List.getLast_append_singleton _
      rwa [List.getLast_append_of_ne_nil _ hq] at hboth
    rw [← hlast]
    exact (List.dropLast_append_getLast hq).symm
  obtain ⟨rest, rfl⟩ := hq'
  refine hrun ?_
  rw [hcut, run_append, hp, Option.bind_some]
  exact (closing_of_finish hv).run_brace rest

/-! ### What the machine's stack and words hold -/

/-- Values stand where they can, between the parts of a container there is a container, and
words are letters. -/
def Grounded (s : Config) : Prop :=
  match s.mode with
  | .value => Open s.stack
  | .firstItem | .colon => Open s.stack ∧ s.stack ≠ []
  | .firstKey | .key | .after => s.stack ≠ []
  | .word rest _ => ∀ c ∈ rest, c.isAlpha = true
  | _ => True

theorem grounded_complete (h : complete stack v = some s) : Grounded s := by
  unfold complete at h
  split at h
  · cases h
    trivial
  · cases h
    exact List.cons_ne_nil _ _
  · cases h
    exact List.cons_ne_nil _ _
  · cases h

theorem grounded_completeString (h : completeString stack chars = some s) : Grounded s := by
  unfold completeString at h
  split at h
  · cases h
    exact ⟨open_field _ _ _, List.cons_ne_nil _ _⟩
  · exact grounded_complete h

theorem grounded_stepAfter (hs : Grounded s) (h : stepAfter s c = some s') : Grounded s' := by
  obtain ⟨mode, stack⟩ := s
  unfold stepAfter at h
  split at h
  · split at h
    · cases h
      exact hs
    · cases h
  · split at h
    · cases h
      exact hs
    split at h
    · cases h
      exact open_items _ _
    split at h
    · exact grounded_complete h
    · cases h
  · split at h
    · cases h
      exact hs
    split at h
    · cases h
      exact List.cons_ne_nil _ _
    split at h
    · exact grounded_complete h
    · cases h
  · cases h

theorem grounded_stepValue (hopen : Open stack) (h : stepValue stack c = some s) :
    Grounded s := by
  have hword : ∀ rest v, (∀ d ∈ rest, Char.isAlpha d = true) →
      Grounded ⟨.word rest v, stack⟩ := fun rest v halpha => halpha
  unfold stepValue at h
  split at h
  · cases h
    exact hopen
  split at h
  · cases h
    trivial
  split at h
  · cases h
    exact ⟨open_items _ _, List.cons_ne_nil _ _⟩
  split at h
  · cases h
    exact List.cons_ne_nil _ _
  split at h
  · cases h
    trivial
  split at h
  · cases h
    exact hword _ _ (by decide)
  split at h
  · cases h
    exact hword _ _ (by decide)
  split at h
  · cases h
    exact hword _ _ (by decide)
  split at h
  · cases h
    exact hword _ _ (by decide)
  split at h
  · cases h
    exact hword _ _ (by decide)
  · cases h

theorem grounded_stepEscape (h : stepEscape stack chars c = some s) : Grounded s := by
  unfold stepEscape at h
  repeat' split at h
  all_goals cases h
  all_goals trivial

theorem grounded_completeHex {high : Option ℕ} {code : ℕ}
    (h : completeHex stack chars high code = some s) : Grounded s := by
  unfold completeHex at h
  repeat' split at h
  all_goals cases h
  all_goals trivial

theorem grounded_step (hs : Grounded s) (h : step s c = some s') :
    Grounded s' := by
  obtain ⟨mode, stack⟩ := s
  cases mode with
  | value => exact grounded_stepValue hs h
  | firstItem =>
    unfold step at h
    simp only at h
    split at h
    · cases h
      exact hs
    split at h
    · exact grounded_complete h
    · exact grounded_stepValue hs.1 h
  | firstKey =>
    unfold step at h
    simp only at h
    split at h
    · cases h
      exact hs
    split at h
    · cases h
      trivial
    split at h
    · exact grounded_complete h
    · cases h
  | key =>
    unfold step at h
    simp only at h
    split at h
    · cases h
      exact hs
    split at h
    · cases h
      trivial
    · cases h
  | colon =>
    unfold step at h
    simp only at h
    split at h
    · cases h
      exact hs
    split at h
    · cases h
      exact hs.1
    · cases h
  | after => exact grounded_stepAfter hs h
  | str chars =>
    unfold step at h
    simp only at h
    split at h
    · exact grounded_completeString h
    split at h
    · cases h
      trivial
    split at h
    · cases h
    · cases h
      trivial
  | escape chars => exact grounded_stepEscape h
  | hex chars high digits =>
    unfold step at h
    simp only at h
    split at h
    · cases h
    split at h
    · cases h
      trivial
    · exact grounded_completeHex h
  | low chars high backslash =>
    unfold step at h
    simp only at h
    repeat' split at h
    all_goals cases h
    all_goals trivial
  | number text =>
    unfold step at h
    simp only at h
    split at h
    · cases h
      trivial
    split at h
    · cases h
      show ∀ d ∈ ['n', 'f', 'i', 'n', 'i', 't', 'y'], Char.isAlpha d = true
      decide
    split at h
    · cases h
    · rename_i t ht
      obtain ⟨v, -, hcomplete⟩ := Option.bind_eq_some_iff.mp ht
      exact grounded_stepAfter (grounded_complete hcomplete) h
  | word rest v =>
    unfold step at h
    simp only at h
    split at h
    · cases h
    · split at h
      · exact grounded_complete h
      · cases h
    · rename_i next more _
      split at h
      · cases h
        intro d hd
        exact hs d (List.mem_cons_of_mem _ hd)
      · cases h
  | done v => exact grounded_stepAfter hs h

theorem grounded_run (hs : Grounded s) {text : List Char} (h : run s text = some s') :
    Grounded s' := by
  induction text generalizing s with
  | nil =>
    cases h
    exact hs
  | cons c text ih =>
    rw [run_cons] at h
    obtain ⟨t, hstep, hrun⟩ := Option.bind_eq_some_iff.mp h
    exact ih (grounded_step hs hstep) hrun

theorem grounded_start : Grounded start := open_nil

/-! ### Before a value -/

theorem run_blank (h : tail.all isBlank = true) :
    run start tail = some start := by
  induction tail with
  | nil => rfl
  | cons c tail ih =>
    rw [List.all_cons, Bool.and_eq_true] at h
    have hstep : step start c = some start := if_pos h.1
    rw [run_cons, hstep, Option.bind_some, ih h.2]

theorem complete_ne_start : complete stack v ≠ some start := by
  intro h
  unfold complete at h
  split at h
  all_goals cases h

theorem stepAfter_ne_start (hs : s.mode ≠ .value) :
    stepAfter s c ≠ some start := by
  intro h
  unfold stepAfter at h
  split at h
  · split at h
    · cases h
      exact hs rfl
    · cases h
  · split at h
    · cases h
      exact hs rfl
    split at h
    · cases h
    split at h
    · exact complete_ne_start h
    · cases h
  · split at h
    · cases h
      exact hs rfl
    split at h
    · cases h
    split at h
    · exact complete_ne_start h
    · cases h
  · cases h

theorem stepValue_eq_start (h : stepValue stack c = some start) :
    stack = [] ∧ isBlank c = true := by
  unfold stepValue at h
  split at h
  · rename_i hblank
    exact ⟨congrArg Config.stack (Option.some.inj h), hblank⟩
  repeat' split at h
  all_goals cases h

theorem step_eq_start (hs : Grounded s) (h : step s c = some start) :
    s = start ∧ isBlank c = true := by
  obtain ⟨mode, stack⟩ := s
  cases mode with
  | value =>
    obtain ⟨rfl, hblank⟩ := stepValue_eq_start h
    exact ⟨rfl, hblank⟩
  | firstItem =>
    unfold step at h
    simp only at h
    split at h
    · cases h
    split at h
    · exact absurd h complete_ne_start
    · rename_i hblank _
      exact absurd (stepValue_eq_start h).2 hblank
  | firstKey =>
    unfold step at h
    simp only at h
    split at h
    · cases h
    split at h
    · cases h
    split at h
    · exact absurd h complete_ne_start
    · cases h
  | key =>
    unfold step at h
    simp only at h
    repeat' split at h
    all_goals cases h
  | colon =>
    unfold step at h
    simp only at h
    split at h
    · cases h
    split at h
    · exact absurd (congrArg Config.stack (Option.some.inj h)) hs.2
    · cases h
  | after =>
    exact absurd h (stepAfter_ne_start (s := ⟨.after, stack⟩) nofun)
  | str chars =>
    unfold step at h
    simp only at h
    split at h
    · unfold completeString at h
      split at h
      · cases h
      · exact absurd h complete_ne_start
    repeat' split at h
    all_goals cases h
  | escape chars =>
    unfold step at h
    simp only at h
    unfold stepEscape at h
    repeat' split at h
    all_goals cases h
  | hex chars high digits =>
    unfold step at h
    simp only at h
    split at h
    · cases h
    split at h
    · cases h
    · unfold completeHex at h
      repeat' split at h
      all_goals cases h
  | low chars high backslash =>
    unfold step at h
    simp only at h
    repeat' split at h
    all_goals cases h
  | number text =>
    unfold step at h
    simp only at h
    split at h
    · cases h
    split at h
    · cases h
    split at h
    · cases h
    · rename_i t ht
      refine absurd h (stepAfter_ne_start fun hvalue => ?_)
      obtain ⟨v, -, hcomplete⟩ := Option.bind_eq_some_iff.mp ht
      unfold complete at hcomplete
      split at hcomplete
      all_goals cases hcomplete
      all_goals cases hvalue
  | word rest v =>
    unfold step at h
    simp only at h
    split at h
    · cases h
    · split at h
      · exact absurd h complete_ne_start
      · cases h
    · split at h
      · cases h
      · cases h
  | done v =>
    exact absurd h (stepAfter_ne_start (s := ⟨.done v, stack⟩) nofun)

theorem blank_of_run (h : run start tail = some start) :
    tail.all isBlank = true := by
  induction tail using List.reverseRecOn with
  | nil => rfl
  | append_singleton tail c ih =>
    rw [run_append] at h
    obtain ⟨s, htail, hlast⟩ := Option.bind_eq_some_iff.mp h
    rw [run_singleton] at hlast
    obtain ⟨rfl, hblank⟩ := step_eq_start (grounded_run grounded_start htail) hlast
    rw [List.all_append, ih htail]
    simp [hblank]

/-! ### An object after other text -/

/-- A brace where a value can stand opens an object; elsewhere it can only be in a string. -/
theorem step_brace (hs : Grounded s) (h : step s '{' = some t) :
    (Open s.stack ∧ (s = start ∨ s.stack ≠ []) ∧
      t = ⟨.firstKey, .fields [] :: s.stack⟩) ∨
    ∃ chars, t = ⟨.str chars, s.stack⟩ := by
  have hafter : ∀ u : Config, stepAfter u '{' = none := by
    intro u
    unfold stepAfter
    split <;> rfl
  obtain ⟨mode, stack⟩ := s
  cases mode with
  | value =>
    refine .inl ⟨hs, ?_, (Option.some.inj h).symm⟩
    by_cases hstack : stack = []
    · subst hstack
      exact .inl rfl
    · exact .inr hstack
  | firstItem => exact .inl ⟨hs.1, .inr hs.2, (Option.some.inj h).symm⟩
  | firstKey => cases h
  | key => cases h
  | colon => cases h
  | after =>
    have hnone : step ⟨.after, stack⟩ '{' = none := hafter ⟨.after, stack⟩
    rw [hnone] at h
    cases h
  | str chars => exact .inr ⟨chars ++ ['{'], (Option.some.inj h).symm⟩
  | escape chars => cases h
  | hex chars high digits => cases h
  | low chars high backslash => cases backslash <;> cases h
  | number text =>
    unfold step at h
    simp only at h
    rw [if_neg (by decide), if_neg (by simp)] at h
    split at h
    · cases h
    · rw [hafter] at h
      cases h
  | word rest v =>
    unfold step at h
    simp only at h
    split at h
    · cases h
    · rename_i last
      have halpha := hs last List.mem_cons_self
      rw [if_neg (by rintro rfl; exact absurd halpha (by decide))] at h
      cases h
    · rename_i next more _
      have halpha := hs next List.mem_cons_self
      rw [if_neg (by rintro rfl; exact absurd halpha (by decide))] at h
      cases h
  | done v =>
    have hnone : step ⟨.done v, stack⟩ '{' = none := hafter ⟨.done v, stack⟩
    rw [hnone] at h
    cases h

theorem ne_of_isAlpha {d : Char} (hc : c.isAlpha = true) (hd : d.isAlpha = false) : c ≠ d := by
  rintro rfl
  rw [hd] at hc
  cases hc

theorem not_isBlank_of_isAlpha (hc : c.isAlpha = true) : isBlank c = false := by
  unfold isBlank
  simp [ne_of_isAlpha hc (d := ' ') rfl, ne_of_isAlpha hc (d := '\t') rfl,
    ne_of_isAlpha hc (d := '\n') rfl, ne_of_isAlpha hc (d := '\r') rfl]

theorem step_completeString (h : completeString stack chars = some t) (hc : c.isAlpha = true) :
    step t c = none := by
  have hblank := not_isBlank_of_isAlpha hc
  unfold completeString at h
  split at h
  · cases h
    unfold step
    simp only
    rw [hblank, if_neg Bool.false_ne_true, if_neg (ne_of_isAlpha hc rfl)]
  · unfold complete at h
    split at h
    · cases h
      unfold step stepAfter
      simp only
      rw [hblank, if_neg Bool.false_ne_true]
    · cases h
      unfold step stepAfter
      simp only
      rw [hblank, if_neg Bool.false_ne_true, if_neg (ne_of_isAlpha hc rfl),
        if_neg (ne_of_isAlpha hc rfl)]
    · cases h
      unfold step stepAfter
      simp only
      rw [hblank, if_neg Bool.false_ne_true, if_neg (ne_of_isAlpha hc rfl),
        if_neg (ne_of_isAlpha hc rfl)]
    · cases h

theorem finish_completeString (h : completeString stack chars = some t) {w : Value}
    (hw : finish t = some w) :
    ∃ s, w = .str s := by
  unfold completeString at h
  split at h
  · cases h
    cases hw
  · unfold complete at h
    split at h
    · cases h
      exact ⟨_, (Option.some.inj hw).symm⟩
    · cases h
      cases hw
    · cases h
      cases hw
    · cases h

theorem escapeChar_of_isAlpha (hc : c.isAlpha = true) : escapeChar c = [c] := by
  have hlow : 32 < c.toNat := by
    have hle : 'A'.toNat ≤ c.toNat := by
      unfold Char.isAlpha Char.isUpper Char.isLower at hc
      simp only [Bool.or_eq_true, Bool.and_eq_true, decide_eq_true_eq] at hc
      rcases hc with hupper | hlower
      · exact hupper.1
      · exact le_trans (by decide) (show 'a'.toNat ≤ c.toNat from hlower.1)
    exact lt_of_lt_of_le (by decide) hle
  unfold escapeChar
  rw [if_neg (ne_of_isAlpha hc rfl), if_neg (ne_of_isAlpha hc rfl), if_neg (ne_of_isAlpha hc rfl),
    if_neg (ne_of_isAlpha hc rfl), if_neg (ne_of_isAlpha hc rfl), if_neg (by omega),
    if_neg (by omega), if_neg (by omega)]

section Junction

variable {key : String} {u : Value} {rest : List (String × Value)}

/-- Inside a string, the start of an object's text ends the string and no text that could
end follows but the string's own. -/
theorem finish_of_str {k : Char} {ks : List Char} (hkey : key.toList = k :: ks)
    (hk : k.isAlpha = true) (hcut : dumps (.obj ((key, u) :: rest)) = '{' :: (p ++ q))
    (hrun : run ⟨.str chars, stack⟩ p = some t) {w : Value} (hw : finish t = some w) :
    ∃ s, w = .str s := by
  have htext : dumps (.obj ((key, u) :: rest)) = '{' :: '"' :: k ::
      (dumpsChars ks ++ ':' :: (dumps u ++ dumpsFields rest)) := by
    rw [dumps, dumpsString, hkey, dumpsChars, escapeChar_of_isAlpha hk]
    rfl
  rw [htext, List.cons.injEq] at hcut
  obtain ⟨-, hcut⟩ := hcut
  cases p with
  | nil =>
    cases hrun
    cases hw
  | cons quote p =>
    rw [List.cons_append, List.cons.injEq] at hcut
    obtain ⟨rfl, hcut⟩ := hcut
    rw [run_cons] at hrun
    obtain ⟨t', hclose, hrun⟩ := Option.bind_eq_some_iff.mp hrun
    have hclose : completeString stack chars = some t' := hclose
    cases p with
    | nil =>
      cases hrun
      exact finish_completeString hclose hw
    | cons letter p =>
      rw [List.cons_append, List.cons.injEq] at hcut
      obtain ⟨rfl, -⟩ := hcut
      rw [run_cons, step_completeString hclose hk] at hrun
      cases hrun

/-- **The junction.**  The text of an object whose first key starts with a letter, cut or
not, after other text: when the two are the text of a value that is no string, the other
text is blank, nothing was cut, and the value is the object. -/
theorem loads_junction {k : Char} {ks : List Char} (hkey : key.toList = k :: ks)
    (hk : k.isAlpha = true) (hwf : (Value.obj ((key, u) :: rest)).wellFormed = true)
    (hcut : dumps (.obj ((key, u) :: rest)) = p ++ q) (hp : p ≠ []) {w : Value}
    (h : loads (tail ++ p) = some w) (hw : ∀ s, w ≠ .str s) :
    tail.all isBlank = true ∧ q = [] ∧ w = .obj ((key, u) :: rest) := by
  unfold loads at h
  obtain ⟨t, hrun, hfinish⟩ := Option.bind_eq_some_iff.mp h
  rw [run_append] at hrun
  obtain ⟨s, htail, hrun⟩ := Option.bind_eq_some_iff.mp hrun
  have hgrounded := grounded_run grounded_start htail
  obtain ⟨c, p, rfl⟩ := List.exists_cons_of_ne_nil hp
  obtain ⟨text, htext⟩ := dumps_obj_head ((key, u) :: rest)
  obtain rfl : c = '{' := by
    rw [htext, List.cons_append, List.cons.injEq] at hcut
    exact hcut.1.symm
  obtain ⟨t', hbrace, hrest⟩ := Option.bind_eq_some_iff.mp ((run_cons _ _ _).symm.trans hrun)
  rcases step_brace hgrounded hbrace with ⟨hopen, hplace, rfl⟩ | ⟨chars, rfl⟩
  · -- The object starts here.
    have hvalue : run ⟨.value, s.stack⟩ ('{' :: p) = some t := hrest
    obtain ⟨e, hend, hended⟩ := run_dumps _ hwf s.stack hopen
    by_cases hq : q = []
    · subst hq
      rw [List.append_nil] at hcut
      rw [hcut] at hend
      obtain rfl : e = t := Option.some.inj (hend.symm.trans hvalue)
      rcases hplace with rfl | hstack
      · have hvalue := hended.finish_eq
        exact ⟨blank_of_run htail, rfl, Option.some.inj (hfinish.symm.trans hvalue)⟩
      · -- Inside a container nothing ends.
        exfalso
        cases hended with
        | closed hclosed =>
          unfold complete at hclosed
          split at hclosed
          · rename_i hnil
            exact hstack hnil
          all_goals cases hclosed
          all_goals cases hfinish
        | number hnumber =>
          obtain ⟨frame, frames, hframes⟩ := List.exists_cons_of_ne_nil hstack
          rw [hframes] at hfinish
          cases hfinish
    · rw [finish_of_cut hcut hq hvalue (by rw [hend]; exact Option.some_ne_none _)] at hfinish
      cases hfinish
  · obtain ⟨s', rfl⟩ := finish_of_str hkey hk hcut hrest hfinish
    exact absurd rfl (hw s')

theorem loads_blank {text : List Char} (htail : tail.all isBlank = true) :
    loads (tail ++ text) = loads text := by
  unfold loads
  rw [run_append, run_blank htail, Option.bind_some]

end Junction

/-! ### Text before a character of a string -/

/-- A character that JSON has no use for outside strings. -/
def Wide (c : Char) : Prop := 128 ≤ c.toNat

theorem Wide.ne {d : Char} (hc : Wide c) (hd : d.toNat < 128) : c ≠ d := by
  rintro rfl
  exact absurd hd (Nat.not_lt.mpr hc)

theorem Wide.not_isBlank (hc : Wide c) : isBlank c = false := by
  unfold isBlank
  simp [hc.ne (d := ' ') (by decide), hc.ne (d := '\t') (by decide),
    hc.ne (d := '\n') (by decide), hc.ne (d := '\r') (by decide)]

theorem Wide.not_isDigit (hc : Wide c) : c.isDigit = false := by
  by_contra hdigit
  rw [Bool.not_eq_false] at hdigit
  unfold Char.isDigit at hdigit
  rw [Bool.and_eq_true, decide_eq_true_eq, decide_eq_true_eq] at hdigit
  have hle : c.toNat ≤ '9'.toNat := hdigit.2
  exact absurd (le_trans hc hle) (by decide)

theorem Wide.not_isAlpha (hc : Wide c) : c.isAlpha = false := by
  by_contra halpha
  rw [Bool.not_eq_false] at halpha
  unfold Char.isAlpha Char.isUpper Char.isLower at halpha
  simp only [Bool.or_eq_true, Bool.and_eq_true, decide_eq_true_eq] at halpha
  rcases halpha with hupper | hlower
  · exact absurd (le_trans hc (show c.toNat ≤ 'Z'.toNat from hupper.2)) (by decide)
  · exact absurd (le_trans hc (show c.toNat ≤ 'z'.toNat from hlower.2)) (by decide)

theorem Wide.stepAfter_eq (hc : Wide c) (s : Config) : stepAfter s c = none := by
  unfold stepAfter
  simp [hc.not_isBlank, hc.ne (d := ',') (by decide), hc.ne (d := ']') (by decide),
    hc.ne (d := '}') (by decide)]
  split <;> rfl

theorem Wide.stepValue_eq (hc : Wide c) (stack : List Frame) :
    stepValue stack c = none := by
  unfold stepValue
  simp [hc.not_isBlank, hc.not_isDigit, hc.ne (d := '"') (by decide), hc.ne (d := '[') (by decide),
    hc.ne (d := '{') (by decide), hc.ne (d := '-') (by decide), hc.ne (d := 'n') (by decide),
    hc.ne (d := 't') (by decide), hc.ne (d := 'f') (by decide), hc.ne (d := 'N') (by decide),
    hc.ne (d := 'I') (by decide)]

theorem Wide.stepEscape_eq (hc : Wide c) (stack : List Frame) (chars : List Char) :
    stepEscape stack chars c = none := by
  unfold stepEscape
  simp [hc.ne (d := '"') (by decide), hc.ne (d := '\\') (by decide), hc.ne (d := '/') (by decide),
    hc.ne (d := 'b') (by decide), hc.ne (d := 'f') (by decide), hc.ne (d := 'n') (by decide),
    hc.ne (d := 'r') (by decide), hc.ne (d := 't') (by decide), hc.ne (d := 'u') (by decide)]

theorem Wide.hexValue_eq (hc : Wide c) : hexValue c = none := by
  have hwide : 128 ≤ c.toNat := hc
  unfold hexValue
  rw [hc.not_isDigit, if_neg Bool.false_ne_true, if_neg (by omega), if_neg (by omega)]

theorem Wide.mode_eq (hc : Wide c) (hs : Grounded s) (h : step s c = some t) :
    ∃ chars, s.mode = .str chars := by
  obtain ⟨mode, stack⟩ := s
  unfold step at h
  cases mode with
  | str chars => exact ⟨chars, rfl⟩
  | value => simp [hc.stepValue_eq] at h
  | firstItem =>
    simp [hc.not_isBlank, hc.ne (d := ']') (by decide), hc.stepValue_eq] at h
  | firstKey =>
    simp [hc.not_isBlank, hc.ne (d := '"') (by decide), hc.ne (d := '}') (by decide)] at h
  | key => simp [hc.not_isBlank, hc.ne (d := '"') (by decide)] at h
  | colon => simp [hc.not_isBlank, hc.ne (d := ':') (by decide)] at h
  | after => simp [hc.stepAfter_eq] at h
  | escape chars => simp [hc.stepEscape_eq] at h
  | hex chars high digits => simp [hc.hexValue_eq] at h
  | low chars high backslash =>
    simp [hc.ne (d := 'u') (by decide), hc.ne (d := '\\') (by decide)] at h
  | number text =>
    have hchar : isNumberChar c = false := by
      unfold isNumberChar
      simp [hc.not_isDigit, hc.ne (d := '-') (by decide), hc.ne (d := '+') (by decide),
        hc.ne (d := '.') (by decide), hc.ne (d := 'e') (by decide),
        hc.ne (d := 'E') (by decide)]
    simp only [hchar, Bool.false_eq_true, if_false, hc.ne (d := 'I') (by decide), and_false] at h
    split at h
    · cases h
    · rw [hc.stepAfter_eq] at h
      cases h
  | word rest v =>
    have hne : ∀ d ∈ rest, c ≠ d := by
      rintro d hd rfl
      have halpha := hs c hd
      rw [hc.not_isAlpha] at halpha
      cases halpha
    simp only at h
    split at h
    · cases h
    · rw [if_neg (hne _ List.mem_cons_self)] at h
      cases h
    · rw [if_neg (hne _ List.mem_cons_self)] at h
      cases h
  | done v => simp [hc.stepAfter_eq] at h

/-- **Cut before a wide character.**  The text before it is no JSON text. -/
theorem loads_before_wide (hwf : v.wellFormed = true) (hc : Wide c)
    (hcut : dumps v = p ++ c :: q) : loads p = none := by
  obtain ⟨e, hrun, -⟩ := run_dumps v hwf [] open_nil
  rw [hcut, run_append] at hrun
  obtain ⟨s, hp, hrun⟩ := Option.bind_eq_some_iff.mp hrun
  obtain ⟨t, hstep, -⟩ := Option.bind_eq_some_iff.mp ((run_cons _ _ _).symm.trans hrun)
  obtain ⟨chars, hmode⟩ := hc.mode_eq (grounded_run grounded_start hp) hstep
  unfold loads
  have hp : run start p = some s := hp
  rw [hp, Option.bind_some]
  unfold finish
  rw [hmode]

end Json
