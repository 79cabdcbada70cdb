import GoalFlight.Watch.Markers
import Mathlib.Data.List.Infix
import Mathlib.Data.List.DropRight

/-!
# The watcher: whose marker it is

A success marker is of the dispatch whose id its payload starts with; an attention marker is of
every dispatch, unless its payload names another one that is known.  The id of a payload ends at a
blank, a dash or one of `:;|`, and the colon may also stand in an id.
-/

namespace GoalFlight.Watch

open Messages (isSpace)

/-- A character of the journal's identities. -/
def isIdentityChar (c : Char) : Bool := c.isAlphanum || ['.', '_', ':', '@', '+', '-'].contains c

/-- `[A-Za-z0-9][A-Za-z0-9._:@+-]*`. -/
def IsIdentity (id : Line) : Prop :=
  (∃ c, id.head? = some c ∧ c.isAlphanum = true) ∧ ∀ c ∈ id, isIdentityChar c = true

/-- What `_strip_marker_decoration` takes away. -/
def decorates (c : Char) : Bool := isSpace c || c = '*' || c = '`'

/-- **The payload is an id**, alone or with a separator and a summary. -/
def Carries (text id : Line) : Prop := ∃ lead tail, text = lead ++ (id ++ tail) ∧
  (∀ c ∈ lead, decorates c = true) ∧
    ((∀ c ∈ tail, decorates c = true) ∨ tail.head?.any endsIdentity = true)

/-- The payload names an id with the dash of the identity contract. -/
def NamesWithDash (text id : Line) : Prop := ∃ lead blanks dash summary,
  text = lead ++ (id ++ (blanks ++ dash :: summary)) ∧ (∀ c ∈ lead, decorates c = true) ∧
    (∀ c ∈ blanks, c = ' ' ∨ c = '\t') ∧ (dash = '—' ∨ dash = '–')

/-- What is read of a marker's text: all of it, or what comes before the streaming limit. -/
def ReadAs (text shown : Line) (cut : Bool) : Prop :=
  if cut then shown <+: text else shown = text

/-- A success marker of the other dispatch is not its own. -/
def SuccessTold (env : Lookups) (own other : Line) : Prop :=
  ∀ marker text cut, marker.kind.isSuccess = true → Carries text other →
    ReadAs text marker.text cut → env.matchesDispatch marker own cut = false

/-- An attention marker that names the other dispatch, which is known, is not its own. -/
def AttentionTold (env : Lookups) (own other : Line) : Prop :=
  ∀ marker, marker.kind.isAttention = true → NamesWithDash marker.text other →
    env.hasRecord other = true → env.matchesDispatch marker own false = false

/-- **Its own markers are its own.** -/
def OwnBound (env : Lookups) (own : Line) : Prop :=
  ∀ marker, Carries marker.text own → env.matchesDispatch marker own false = true

/-! ### Ids -/

variable {id own other text lead tail payload : Line} {c : Char} {marker : Marker} {cut : Bool}
  {env : Lookups}

theorem isIdentityChar_cases (hc : isIdentityChar c = true) : decorates c = false ∧
    isSpace c = false ∧ (endsIdentity c = true → c = ':') := by
  have hascii : c.toNat < 128 := by
    unfold isIdentityChar at hc
    rw [Bool.or_eq_true, List.contains_iff_mem] at hc
    rcases hc with hc | hc
    · unfold Char.isAlphanum Char.isAlpha Char.isUpper Char.isLower Char.isDigit at hc
      simp only [Bool.or_eq_true, Bool.and_eq_true, decide_eq_true_eq, UInt32.le_iff_toNat_le,
        ge_iff_le] at hc
      have hvalue : c.toNat = c.val.toNat := rfl
      have hupper : 'Z'.val.toNat = 90 := rfl
      have hlower : 'z'.val.toNat = 122 := rfl
      have hdigit : '9'.val.toNat = 57 := rfl
      omega
    · revert c
      decide
  have hall : ∀ n, n < 128 → isIdentityChar (Char.ofNat n) = true →
      decorates (Char.ofNat n) = false ∧ isSpace (Char.ofNat n) = false ∧
        (endsIdentity (Char.ofNat n) = true → Char.ofNat n = ':') := by
    decide +kernel
  have hchar := hall c.toNat hascii
  rw [Char.ofNat_toNat] at hchar
  exact hchar hc

theorem IsIdentity.ne_nil (h : IsIdentity id) : id ≠ [] := by
  obtain ⟨⟨c, hc, _⟩, _⟩ := h
  rintro rfl
  cases hc

theorem IsIdentity.strip_eq (h : IsIdentity id) : strip id = id := by
  have hspace : ∀ c ∈ id, isSpace c = false := fun c hc => (isIdentityChar_cases (h.2 c hc)).2.1
  have hdrop : ∀ text : Line, (∀ c ∈ text, isSpace c = false) → text.dropWhile isSpace = text := by
    intro text htext
    cases text with
    | nil => rfl
    | cons c rest => rw [List.dropWhile_cons_of_neg (by simp [htext c List.mem_cons_self])]
  unfold strip lstrip rstrip
  rw [hdrop id hspace, hdrop id.reverse fun c hc => hspace c (List.mem_reverse.mp hc),
    List.reverse_reverse]

/-! ### Payloads -/

theorem rdropWhile_append (h : id.rdropWhile decorates = id) :
    (id ++ tail).rdropWhile decorates = id ++ tail.rdropWhile decorates := by
  induction tail using List.reverseRecOn with
  | nil =>
    rw [List.append_nil, List.rdropWhile_nil, List.append_nil]
    exact h
  | append_singleton tail c ih =>
    rw [← List.append_assoc, List.rdropWhile_concat, List.rdropWhile_concat, ih]
    split
    · rfl
    · rw [List.append_assoc]

/-- **The decoration around an id is taken away.** -/
theorem stripMarkerDecoration_eq (hlead : ∀ c ∈ lead, decorates c = true)
    (hid : ∀ c ∈ id, isIdentityChar c = true) (hne : id = [] → tail = []) :
    stripMarkerDecoration (lead ++ (id ++ tail)) = id ++ tail.rdropWhile decorates := by
  have hplain : ∀ c ∈ id, decorates c = false := fun c hc => (isIdentityChar_cases (hid c hc)).1
  show ((lead ++ (id ++ tail)).dropWhile decorates).rdropWhile decorates = _
  have hkept : id.rdropWhile decorates = id :=
    List.rdropWhile_eq_self_iff.mpr fun hne => by simp [hplain _ (List.getLast_mem hne)]
  rw [List.dropWhile_append_of_pos hlead, ← rdropWhile_append hkept]
  congr 1
  cases id with
  | nil => rw [hne rfl]; rfl
  | cons c rest =>
    rw [List.cons_append, List.dropWhile_cons_of_neg (by simp [hplain c List.mem_cons_self])]

theorem head_rdropWhile (h : (∀ c ∈ tail, decorates c = true) ∨ tail.head?.any endsIdentity = true) :
    tail.rdropWhile decorates = [] ∨
      (tail.rdropWhile decorates).head?.any endsIdentity = true := by
  rcases h with hall | hhead
  · exact .inl (List.rdropWhile_eq_nil_iff.mpr hall)
  · have hpart := List.rdropWhile_prefix decorates (l := tail)
    cases hrest : tail.rdropWhile decorates with
    | nil => exact .inl rfl
    | cons c rest =>
      rw [hrest] at hpart
      obtain ⟨more, rfl⟩ := hpart
      exact .inr hhead

/-- **When a payload binds.** -/
theorem payloadBindsToDispatch_iff : payloadBindsToDispatch marker own cut = true ↔
    (stripMarkerDecoration marker.text = own ∧ cut = false) ∨ ∃ c rest,
      stripMarkerDecoration marker.text = own ++ c :: rest ∧ endsIdentity c = true := by
  unfold payloadBindsToDispatch
  dsimp only
  split
  · rename_i heq
    rw [heq]
    simp
  · rename_i hne
    rw [Bool.and_eq_true, List.isPrefixOf_iff_prefix]
    constructor
    · rintro ⟨⟨rest, hrest⟩, hhead⟩
      rw [← hrest, List.drop_left] at hhead
      cases rest with
      | nil => cases hhead
      | cons c rest => exact .inr ⟨c, rest, hrest.symm, hhead⟩
    · rintro (⟨heq, -⟩ | ⟨c, rest, heq, hends⟩)
      · exact absurd heq hne
      · rw [heq, List.drop_left]
        exact ⟨List.prefix_append _ _, hends⟩

section

variable (hown : IsIdentity own)
include hown

theorem not_binds (hother : IsIdentity other) (hne : own ≠ other)
    (hbefore : ¬ own ++ [':'] <+: other)
    (hafter : tail.head? = some ':' → ¬ other ++ [':'] <+: own)
    (htail : tail = [] ∨ tail.head?.any endsIdentity = true)
    (htext : stripMarkerDecoration marker.text = other ++ tail) :
    payloadBindsToDispatch marker own cut = false := by
  have hlonger : ∀ d more, own = other ++ d :: more → ∀ rest, tail ≠ d :: rest := by
    rintro d more heq rest rfl
    have hmem : d ∈ own := by simp [heq]
    have hends : endsIdentity d = true := htail.resolve_left nofun
    obtain rfl := (isIdentityChar_cases (hown.2 d hmem)).2.2 hends
    exact hafter rfl ⟨more, by simp [heq]⟩
  rw [Bool.eq_false_iff]
  intro hbinds
  rcases payloadBindsToDispatch_iff.mp hbinds with ⟨heq, -⟩ | ⟨c, rest, heq, hends⟩
  · cases tail with
    | nil => exact hne (by rw [← heq, htext, List.append_nil])
    | cons d more => exact hlonger d more (heq.symm.trans htext) more rfl
  · rcases List.append_eq_append_iff.mp (htext.symm.trans heq) with ⟨more, hmore, hrest⟩ | ⟨more, hmore, hrest⟩
    · cases more with
      | nil => exact hne (by rw [hmore, List.append_nil])
      | cons d more => exact hlonger d more hmore _ hrest
    · cases more with
      | nil => exact hne (by rw [hmore, List.append_nil])
      | cons d more =>
        obtain ⟨rfl, -⟩ := List.cons.inj hrest
        have hmem : c ∈ other := by simp [hmore]
        obtain rfl := (isIdentityChar_cases (hother.2 c hmem)).2.2 hends
        exact hbefore ⟨more, by simp [hmore]⟩

/-! ### Whose marker it is -/

theorem matchesDispatch_eq : env.matchesDispatch marker own cut =
    (payloadBindsToDispatch marker own cut || (marker.kind.isAttention &&
      !env.namesForeignDispatch (stripMarkerDecoration marker.text) own)) := by
  unfold Lookups.matchesDispatch
  dsimp only
  rw [hown.strip_eq, decide_eq_false hown.ne_nil, Bool.false_or]

/-- **A success marker is of no other dispatch**, where neither id is the other and a colon. -/
theorem successTold (hother : IsIdentity other) (hne : own ≠ other)
    (hbefore : ¬ own ++ [':'] <+: other) (hafter : ¬ other ++ [':'] <+: own) :
    SuccessTold env own other := by
  rintro marker text cut hsuccess ⟨lead, tail, rfl, hlead, htail⟩ hread
  have hkind : marker.kind.isAttention = false := by
    cases hk : marker.kind <;> simp_all [Kind.isSuccess, Kind.isAttention]
  rw [matchesDispatch_eq hown, hkind, Bool.false_and, Bool.or_false]
  cases cut with
  | false =>
    have htext : marker.text = lead ++ (other ++ tail) := hread
    refine not_binds hown hother hne hbefore (fun _ => hafter) (head_rdropWhile htail) ?_
    rw [htext]
    exact stripMarkerDecoration_eq hlead hother.2 fun hnil => absurd hnil hother.ne_nil
  | true =>
    -- what is shown ends in the decoration, in the id, or after it
    have htext : marker.text = (lead ++ (other ++ tail)).take marker.text.length :=
      List.prefix_iff_eq_take.mp hread
    generalize marker.text.length = n at htext
    rw [List.take_append, List.take_append] at htext
    have hlead' : ∀ c ∈ lead.take n, decorates c = true := fun c hc =>
      hlead c (List.mem_of_mem_take hc)
    by_cases hn : other.length ≤ n - lead.length
    · rw [List.take_of_length_le hn] at htext
      refine not_binds hown hother hne hbefore (fun _ => hafter) (head_rdropWhile ?_) (htext ▸
        stripMarkerDecoration_eq hlead' hother.2 fun hnil => absurd hnil hother.ne_nil)
      rcases htail with hall | hhead
      · exact .inl fun c hc => hall c (List.mem_of_mem_take hc)
      · cases tail with
        | nil => cases hhead
        | cons c rest =>
          cases hm : n - lead.length - other.length with
          | zero => exact .inl nofun
          | succ m => exact .inr hhead
    · have hnil : n - lead.length - other.length = 0 := by omega
      rw [hnil, List.take_zero] at htext
      have hpart : ∀ c ∈ other.take (n - lead.length), isIdentityChar c = true := fun c hc =>
        hother.2 c (List.mem_of_mem_take hc)
      have hshown := stripMarkerDecoration_eq hlead' hpart fun _ => rfl
      rw [← htext, List.rdropWhile_nil, List.append_nil] at hshown
      rw [Bool.eq_false_iff]
      intro hbinds
      rcases payloadBindsToDispatch_iff.mp hbinds with ⟨-, hcut⟩ | ⟨c, rest, heq, hends⟩
      · cases hcut
      · have hprefix : own ++ c :: rest <+: other := by
          rw [← heq, hshown]
          exact List.take_prefix _ _
        obtain ⟨more, hmore⟩ := hprefix
        have hmem : c ∈ other := by simp [← hmore]
        obtain rfl := (isIdentityChar_cases (hother.2 c hmem)).2.2 hends
        exact hbefore ⟨rest ++ more, by simp [← hmore]⟩

/-- **An attention marker that names another dispatch is not its own**, where the id that it names
has the shape that the watcher looks for, and no colon. -/
theorem attentionTold (hother : IsIdentity other) (hne : own ≠ other)
    (hshape : looksLikeDispatchId other = true) (hcolon : ':' ∉ other) :
    AttentionTold env own other := by
  rintro marker hattention ⟨lead, blanks, dash, summary, htext, hlead, hblanks, hdash⟩ hknown
  have hends : ∀ c ∈ blanks ++ [dash], endsIdentity c = true := by
    intro c hc
    rcases List.mem_append.mp hc with hblank | hlast
    · rcases hblanks c hblank with rfl | rfl <;> decide
    · rw [List.mem_singleton.mp hlast]
      rcases hdash with rfl | rfl <;> decide
  have hplain : ∀ c ∈ other, endsIdentity c = false := by
    intro c hc
    by_contra hsep
    rw [Bool.not_eq_false] at hsep
    exact hcolon ((isIdentityChar_cases (hother.2 c hc)).2.2 hsep ▸ hc)
  -- the dash stays, with what is before it
  obtain ⟨rest, hrest⟩ : ∃ rest, (blanks ++ dash :: summary).rdropWhile decorates =
      blanks ++ dash :: rest := by
    have hkept : (blanks ++ [dash]).rdropWhile decorates = blanks ++ [dash] :=
      List.rdropWhile_concat_neg _ _ _ (by rcases hdash with rfl | rfl <;> decide)
    exact ⟨_, by simpa using rdropWhile_append hkept⟩
  have hpayload : stripMarkerDecoration marker.text = other ++ (blanks ++ dash :: rest) := by
    rw [htext, stripMarkerDecoration_eq hlead hother.2 fun hnil => absurd hnil hother.ne_nil, hrest]
  have hhead : (blanks ++ dash :: rest).head?.any endsIdentity = true := by
    cases blanks with
    | nil => exact hends dash (by simp)
    | cons c more => exact hends c (by simp)
  have hbinds : payloadBindsToDispatch marker own false = false := by
    refine not_binds hown hother hne ?_ ?_ (.inr hhead) hpayload
    · exact fun hbefore => hcolon (hbefore.subset (by simp))
    · cases blanks with
      | nil => rcases hdash with rfl | rfl <;> exact nofun
      | cons c more => rcases hblanks c (by simp) with rfl | rfl <;> exact nofun
  -- the leading token is the id, and the remainder starts with the first separator
  have hpos : ∀ c ∈ other, (!endsIdentity c) = true := fun c hc => by simp [hplain c hc]
  obtain ⟨c, more, hcons, hc⟩ : ∃ c more, blanks ++ dash :: rest = c :: more ∧
      endsIdentity c = true := by
    cases hlist : blanks ++ dash :: rest with
    | nil => simp at hlist
    | cons c more =>
      rw [hlist] at hhead
      exact ⟨c, more, rfl, hhead⟩
  have htoken : (other ++ (blanks ++ dash :: rest)).takeWhile (fun c => !endsIdentity c) = other := by
    rw [List.takeWhile_append_of_pos hpos, hcons, List.takeWhile_cons_of_neg (by simp [hc]),
      List.append_nil]
  have hremainder : (other ++ (blanks ++ dash :: rest)).dropWhile (fun c => !endsIdentity c) =
      blanks ++ dash :: rest := by
    rw [List.dropWhile_append_of_pos hpos, hcons, List.dropWhile_cons_of_neg (by simp [hc])]
  have hforeign : env.namesForeignDispatch (stripMarkerDecoration marker.text) own = true := by
    have hdrop : (blanks ++ dash :: rest).dropWhile (fun c => c = ' ' || c = '\t') = dash :: rest := by
      rw [List.dropWhile_append_of_pos fun c hc => by simpa using hblanks c hc]
      exact List.dropWhile_cons_of_neg (by rcases hdash with rfl | rfl <;> decide)
    unfold Lookups.namesForeignDispatch
    rw [hpayload]
    dsimp only
    rw [htoken, hremainder, hdrop, if_neg (by simp [hother.ne_nil, hne.symm, hshape])]
    rw [hknown]
    rcases hdash with rfl | rfl <;> rfl
  rw [matchesDispatch_eq hown, hbinds, hforeign, hattention]
  rfl

/-- **Its own markers are its own**, attention markers and success markers. -/
theorem ownBound : OwnBound env own := by
  rintro marker ⟨lead, tail, htext, hlead, htail⟩
  have hpayload : stripMarkerDecoration marker.text = own ++ tail.rdropWhile decorates := by
    rw [htext]
    exact stripMarkerDecoration_eq hlead hown.2 fun hnil => absurd hnil hown.ne_nil
  rw [matchesDispatch_eq hown, Bool.or_eq_true]
  refine .inl (payloadBindsToDispatch_iff.mpr ?_)
  rcases head_rdropWhile htail with hnil | hhead
  · exact .inl ⟨by rw [hpayload, hnil, List.append_nil], rfl⟩
  · cases hrest : tail.rdropWhile decorates with
    | nil => exact .inl ⟨by rw [hpayload, hrest, List.append_nil], rfl⟩
    | cons c rest =>
      rw [hrest] at hhead hpayload
      exact .inr ⟨c, rest, hpayload, hhead⟩

end

/-- **A dispatch's markers are told from those of the others**: success markers where neither id is
the other and a colon, attention markers where the other's id has a hyphen, no colon and at most 255
characters; and its own are its own. -/
theorem markers_told (hown : IsIdentity own) (hother : IsIdentity other) (hne : own ≠ other) :
    (¬ own ++ [':'] <+: other → ¬ other ++ [':'] <+: own → SuccessTold env own other) ∧
      ('-' ∈ other → ':' ∉ other → other.length ≤ 255 → AttentionTold env own other) ∧
        OwnBound env own := by
  refine ⟨successTold hown hother hne, fun hhyphen hcolon hlength => ?_, ownBound hown⟩
  refine attentionTold hown hother hne ?_ hcolon
  obtain ⟨⟨c, hhead, hc⟩, hall⟩ := hother
  unfold looksLikeDispatchId
  rw [Bool.and_eq_true, Bool.and_eq_true, Bool.and_eq_true, List.all_eq_true]
  exact ⟨⟨⟨by simpa using hhyphen, by simpa using hlength⟩, by rw [hhead]; exact hc⟩, hall⟩

theorem markers_told_longer : SuccessTold ⟨fun _ => false, fun _ => true⟩ "codex-1".toList
      "codex-12".toList ∧ AttentionTold ⟨fun _ => false, fun _ => true⟩ "codex-1".toList
      "codex-12".toList := by
  have hown : IsIdentity "codex-1".toList := ⟨⟨'c', rfl, by decide⟩, by decide⟩
  have hother : IsIdentity "codex-12".toList := ⟨⟨'c', rfl, by decide⟩, by decide⟩
  have htold := @markers_told _ _ ⟨fun _ => false, fun _ => true⟩ hown hother (by decide)
  exact ⟨htold.1 (by decide) (by decide), htold.2.1 (by decide) (by decide) (by decide)⟩

theorem marker_binds_to_other : ¬ ∀ (env : Lookups) (own other : Line), IsIdentity own →
    IsIdentity other → own ≠ other →
      SuccessTold env own other ∧ AttentionTold env own other ∧ OwnBound env own := by
  intro h
  have htold := (h ⟨fun _ => false, fun _ => false⟩ "a".toList "a:b".toList
    ⟨⟨'a', rfl, by decide⟩, by decide⟩ ⟨⟨'a', rfl, by decide⟩, by decide⟩ (by decide)).1
  have hfalse := htold ⟨0, .complete, "a:b".toList⟩ "a:b".toList false rfl
    ⟨[], [], rfl, nofun, .inl nofun⟩ rfl
  revert hfalse
  decide

end GoalFlight.Watch
