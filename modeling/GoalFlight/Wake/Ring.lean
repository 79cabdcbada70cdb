import GoalFlight.Library.JsonDynamic
import GoalFlight.Library.JsonRoundTrip
import GoalFlight.Library.Machine

/-!
# Wake: one ring for a cursor version

A stamp file holds the last cursor version for which a controller was rung.  A listener that
has read a version claims the ring with it: `claim_ring` compares the version with the stamp,
under a lock, and writes it when they differ.  `release_ring_claim` removes the stamp of a
version that could not be delivered.

The stamp is compared for inequality: a listener whose version is stale overwrites the stamp of
a newer version, which then rings again.  `one_ring_per_version` is about the runs in which no
stale version is stamped.
-/

namespace GoalFlight.Wake

open Json.Value

/-! ### The stamp -/

/-- White space of ASCII, as `str.strip` has it. -/
def isAsciiBlank (c : Char) : Bool :=
  c = ' ' || (9 ≤ c.toNat && c.toNat ≤ 13) || (28 ≤ c.toNat && c.toNat ≤ 31)

/-- `int(raw.decode("ascii").strip())`, where it does not raise. -/
def asciiInt? (raw : List UInt8) : Option ℤ :=
  if raw.all (· < 128) then
    let text := raw.map fun b => Char.ofNat b.toNat
    textInt? (((text.dropWhile isAsciiBlank).reverse.dropWhile isAsciiBlank).reverse)
  else none

/-- `f"{cursor_version}\n".encode("ascii")`. -/
def encodeStamp (version : ℕ) : List UInt8 :=
  (Nat.toDigits 10 version ++ ['\n']).map fun c => c.toNat.toUInt8

/-- `os.read(stamp_fd, 65)`; a stamp that is not there reads as empty. -/
def rawStamp (stamp : Option (List UInt8)) : List UInt8 := (stamp.getD []).take 65

/-- What the stamp says. -/
def observedStamp (stamp : Option (List UInt8)) : Option ℤ := asciiInt? (rawStamp stamp)

/-- The stamp is corrupt: it is too long, or is not empty and says no version. -/
def malformedStamp (stamp : Option (List UInt8)) : Bool :=
  (rawStamp stamp).length > 64 ||
    (!(rawStamp stamp).isEmpty && (observedStamp stamp).all (· < 0))

/-- `_ring_stamp_needs_claim`. -/
def ringStampNeedsClaim (observed : Option ℤ) (version : ℕ) : Bool := observed ≠ some ↑version

/-- `claim_ring` under the lock: the answer, and the stamp that is left. -/
def claimRing (version : ℕ) (stamp : Option (List UInt8)) : Bool × Option (List UInt8) :=
  if !malformedStamp stamp && !ringStampNeedsClaim (observedStamp stamp) version then
    (false, stamp)
  else (true, some (encodeStamp version))

/-- `release_ring_claim` under the lock. -/
def releaseRingClaim (version : ℕ) (stamp : Option (List UInt8)) : Bool × Option (List UInt8) :=
  if observedStamp stamp = some ↑version then (true, none) else (false, stamp)

/-! ### Listeners -/

/-- The cursor version of the controller, the stamp, and the version that each listener has
read.  The newest version that was ever stamped is kept for the statements; nobody reads it. -/
structure RingState where
  cursor : ℕ
  stamp : Option (List UInt8)
  seen : ℕ → Option ℕ
  newest : Option ℕ

/-- How a call goes: the lock is busy, the process dies on the way, or it returns. -/
inductive Fate
  | busy
  | diesBefore
  /-- It has moved a corrupt stamp aside. -/
  | diesBetween
  /-- It has changed the stamp. -/
  | diesAfter
  | returns
deriving DecidableEq

/-- What happens next. -/
inductive RingAction
  /-- The cursor moves on. -/
  | advance (version : ℕ)
  | read (listener : ℕ)
  | claim (listener : ℕ) (fate : Fate)
  | release (version : ℕ) (fate : Fate)
  /-- The stamp is damaged from outside. -/
  | damage (raw : List UInt8)

namespace RingState

/-- The state before the first ring. -/
def start (cursor : ℕ) : RingState := ⟨cursor, none, fun _ => none, none⟩

/-- The state after a stamp. -/
def stamped (s : RingState) (version : ℕ) (stamp : Option (List UInt8)) : RingState :=
  { s with stamp := stamp, newest := some (max version (s.newest.getD 0)) }

/-- The state after a claim. -/
def afterClaim (s : RingState) (listener : ℕ) (fate : Fate) : RingState :=
  match s.seen listener, fate with
  | none, _ | _, .busy | _, .diesBefore => s
  | some _, .diesBetween => if malformedStamp s.stamp then { s with stamp := none } else s
  | some version, .diesAfter | some version, .returns =>
    if (claimRing version s.stamp).1 then s.stamped version (claimRing version s.stamp).2
    else s

/-- The state after a release. -/
def afterRelease (s : RingState) (version : ℕ) : Fate → RingState
  | .busy | .diesBefore | .diesBetween => s
  | .diesAfter | .returns => { s with stamp := (releaseRingClaim version s.stamp).2 }

/-- One step. -/
def step (s : RingState) : RingAction → RingState
  | .advance version => if s.cursor < version then { s with cursor := version } else s
  | .read listener => { s with seen := Function.update s.seen listener (some s.cursor) }
  | .claim listener fate => s.afterClaim listener fate
  | .release version fate => s.afterRelease version fate
  | .damage raw => if malformedStamp (some raw) then { s with stamp := some raw } else s

/-- The state after these steps. -/
def run (s : RingState) (actions : List RingAction) : RingState := Machine.run step s actions

/-- The answer of a claim: a listener that finds the lock busy is refused. -/
def claimAnswer (s : RingState) (version : ℕ) : Fate → Option Bool
  | .busy => some false
  | .returns => some (claimRing version s.stamp).1
  | _ => none

/-- The step is a claim of the version that returns true. -/
def Rings (version : ℕ) (s : RingState) : RingAction → Prop
  | .claim listener fate =>
    s.seen listener = some version ∧ s.claimAnswer version fate = some true
  | _ => False

/-- The step frees the version: a release of it returns true, or a claim finds the stamp
corrupt. -/
def Frees (version : ℕ) (s : RingState) : RingAction → Prop
  | .release released fate =>
    released = version ∧ fate = .returns ∧ (releaseRingClaim version s.stamp).1 = true
  | .claim listener fate =>
    (s.seen listener).isSome = true ∧ fate ≠ .busy ∧ fate ≠ .diesBefore ∧
      malformedStamp s.stamp = true
  | _ => False

/-- **The condition**: a claim that stamps its version returns, and no newer version was ever
stamped; a release that removes a stamp returns, and the stamp is not corrupt. -/
def OnTime (s : RingState) : RingAction → Prop
  | .claim listener fate =>
    ∀ version, s.seen listener = some version → (fate = .diesAfter ∨ fate = .returns) →
      (claimRing version s.stamp).1 = true →
        fate = .returns ∧ ∀ w ∈ s.newest, w ≤ version
  | .release version fate =>
    (fate = .diesAfter ∨ fate = .returns) → (releaseRingClaim version s.stamp).1 = true →
      fate = .returns ∧ malformedStamp s.stamp = false
  | _ => True

end RingState

variable {s : RingState} {version : ℕ} {a : RingAction} {stamp : Option (List UInt8)}

/-! ### Reading a stamp back -/

theorem dropWhile_eq_self {p : Char → Bool} {text : List Char} (h : ∀ c ∈ text, p c = false) :
    text.dropWhile p = text := by
  cases text with
  | nil => rfl
  | cons c rest => rw [List.dropWhile_cons_of_neg (by simp [h c List.mem_cons_self])]

theorem strip_eq_self {p : Char → Bool} {text : List Char} (h : ∀ c ∈ text, p c = false) :
    ((text.dropWhile p).reverse.dropWhile p).reverse = text := by
  rw [dropWhile_eq_self h, dropWhile_eq_self fun c hc => h c (List.mem_reverse.mp hc),
    List.reverse_reverse]

theorem isDigit_toDigits {n : ℕ} {c : Char} (hc : c ∈ Nat.toDigits 10 n) : c.isDigit = true :=
  Nat.isDigit_of_mem_toDigits (by decide) (by decide) hc

theorem toNat_of_isDigit {c : Char} (h : c.isDigit = true) : 48 ≤ c.toNat ∧ c.toNat ≤ 57 :=
  Char.isDigit_iff_toNat.mp h

theorem ne_of_isDigit {c d : Char} (h : c.isDigit = true) (hd : d.isDigit = false) : c ≠ d := by
  rintro rfl
  rw [h] at hd
  cases hd

theorem isBlank_of_isDigit {c : Char} (h : c.isDigit = true) : Json.isBlank c = false := by
  unfold Json.isBlank
  have hne : ∀ d : Char, d.isDigit = false → (decide (c = d)) = false :=
    fun d hd => decide_eq_false (ne_of_isDigit h hd)
  rw [hne ' ' rfl, hne '\t' rfl, hne '\n' rfl, hne '\r' rfl]
  rfl

theorem isAsciiBlank_of_isDigit {c : Char} (h : c.isDigit = true) : isAsciiBlank c = false := by
  obtain ⟨hlow, -⟩ := toNat_of_isDigit h
  have hspace : c ≠ ' ' := ne_of_isDigit h rfl
  simp only [isAsciiBlank, decide_eq_false hspace, Bool.false_or, Bool.or_eq_false_iff,
    Bool.and_eq_false_iff, decide_eq_false_iff_not]
  omega

/-- **The digits of a number read as the number.** -/
theorem textInt?_toDigits (n : ℕ) : textInt? (Nat.toDigits 10 n) = some ↑n := by
  have hdigit : ∀ c ∈ Nat.toDigits 10 n, c.isDigit = true := fun c hc => isDigit_toDigits hc
  have htrim : trim (Nat.toDigits 10 n) = Nat.toDigits 10 n :=
    strip_eq_self fun c hc => isBlank_of_isDigit (hdigit c hc)
  obtain ⟨d, rest, hcons⟩ := List.exists_cons_of_ne_nil
    (Nat.toDigits_ne_nil (n := n) (b := 10))
  have hd : d.isDigit = true := hdigit d (by rw [hcons]; exact List.mem_cons_self)
  have hsign : Json.dropSign (Nat.toDigits 10 n) = Nat.toDigits 10 n := by
    rw [hcons]
    exact Json.dropSign_of_ne (ne_of_isDigit hd rfl)
  have hsplit : (Nat.toDigits 10 n).splitOn '_' = [Nat.toDigits 10 n] :=
    List.splitOn_eq_singleton fun hc => ne_of_isDigit (hdigit '_' hc) rfl rfl
  have hfilter : (Nat.toDigits 10 n).filter (· ≠ '_') = Nat.toDigits 10 n :=
    List.filter_eq_self.mpr fun c hc => decide_eq_true (ne_of_isDigit (hdigit c hc) rfl)
  have hhead : (Nat.toDigits 10 n).head? ≠ some '-' := by
    rw [hcons]
    exact fun h => ne_of_isDigit hd rfl (Option.some.inj h)
  have hall : [Nat.toDigits 10 n].all (fun group => group ≠ [] && group.all Char.isDigit) =
      true := by
    rw [List.all_cons, List.all_nil, Bool.and_true, List.all_eq_true.mpr hdigit, Bool.and_true]
    exact decide_eq_true Nat.toDigits_ne_nil
  unfold textInt?
  rw [htrim]
  dsimp only
  split
  · rename_i heq
    exact absurd rfl (ne_of_isDigit (hdigit '+' (by rw [heq]; exact List.mem_cons_self)) rfl)
  · simp only [hsign, hsplit, hfilter, if_neg hhead]
    rw [if_pos hall]
    exact congrArg (fun m : ℕ => some (m : ℤ)) Nat.ofDigitChars_ten_toDigits

theorem asciiInt?_encodeStamp (version : ℕ) : asciiInt? (encodeStamp version) = some ↑version := by
  have hsmall : ∀ c ∈ Nat.toDigits 10 version ++ ['\n'], c.toNat < 128 := by
    intro c hc
    rcases List.mem_append.mp hc with hdigit | hnewline
    · have := toNat_of_isDigit (isDigit_toDigits hdigit)
      omega
    · rw [List.mem_singleton.mp hnewline]
      decide
  have hbyte : ∀ c ∈ Nat.toDigits 10 version ++ ['\n'], c.toNat.toUInt8.toNat = c.toNat := by
    intro c hc
    have := hsmall c hc
    rw [UInt8.toNat_ofNat']
    omega
  have hascii : (encodeStamp version).all (· < 128) = true := by
    unfold encodeStamp
    rw [List.all_map, List.all_eq_true]
    intro c hc
    refine decide_eq_true (UInt8.lt_iff_toNat_lt.mpr ?_)
    rw [hbyte c hc]
    exact hsmall c hc
  have hback : (encodeStamp version).map (fun b => Char.ofNat b.toNat) =
      Nat.toDigits 10 version ++ ['\n'] := by
    unfold encodeStamp
    rw [List.map_map]
    refine (List.map_congr_left fun c hc => ?_).trans (List.map_id _)
    show Char.ofNat c.toNat.toUInt8.toNat = c
    rw [hbyte c hc, Char.ofNat_toNat]
  have hblank : ∀ c ∈ Nat.toDigits 10 version, isAsciiBlank c = false :=
    fun c hc => isAsciiBlank_of_isDigit (isDigit_toDigits hc)
  unfold asciiInt?
  rw [if_pos hascii]
  simp only [hback]
  obtain ⟨d, rest, hcons⟩ := List.exists_cons_of_ne_nil
    (Nat.toDigits_ne_nil (n := version) (b := 10))
  have hfirst : (Nat.toDigits 10 version ++ ['\n']).dropWhile isAsciiBlank =
      Nat.toDigits 10 version ++ ['\n'] := by
    rw [hcons, List.cons_append, List.dropWhile_cons_of_neg]
    simp [hblank d (by rw [hcons]; exact List.mem_cons_self)]
  rw [hfirst, List.reverse_append, List.reverse_singleton, List.singleton_append,
    List.dropWhile_cons_of_pos (by decide),
    dropWhile_eq_self fun c hc => hblank c (List.mem_reverse.mp hc), List.reverse_reverse]
  exact textInt?_toDigits version

/-- **A stamp that was written says its version**, or is too long to be read. -/
theorem observedStamp_encodeStamp (version : ℕ) :
    malformedStamp (some (encodeStamp version)) = true ∨
      observedStamp (some (encodeStamp version)) = some ↑version := by
  rcases Nat.lt_or_ge 65 (encodeStamp version).length with hlong | hshort
  · left
    unfold malformedStamp rawStamp
    rw [Option.getD_some, List.length_take, Nat.min_eq_left (Nat.le_of_lt hlong)]
    rfl
  · right
    unfold observedStamp rawStamp
    rw [Option.getD_some, List.take_of_length_le hshort]
    exact asciiInt?_encodeStamp version

/-! ### One ring -/

theorem claimRing_fst : (claimRing version stamp).1 = true ↔
    malformedStamp stamp = true ∨ observedStamp stamp ≠ some ↑version := by
  unfold claimRing ringStampNeedsClaim
  cases malformedStamp stamp <;> by_cases hsame : observedStamp stamp = some ↑version <;>
    simp [hsame]

theorem claimRing_snd (h : (claimRing version stamp).1 = true) :
    (claimRing version stamp).2 = some (encodeStamp version) := by
  unfold claimRing at h ⊢
  split
  · rename_i hrefused
    rw [if_pos hrefused] at h
    cases h
  · rfl

namespace RingState

/-- **The version is rung**: it is the newest that was stamped, and the stamp says it or is
corrupt; or a newer one was stamped. -/
def Rung (version : ℕ) (s : RingState) : Prop :=
  ∃ w, s.newest = some w ∧ version ≤ w ∧
    (w = version → malformedStamp s.stamp = true ∨ observedStamp s.stamp = some ↑version)

theorem newest_stamped {w : ℕ} (hnewest : s.newest = some w) (hle : w ≤ version) :
    (s.stamped version stamp).newest = some version := by
  show some (max version (s.newest.getD 0)) = _
  rw [hnewest, Option.getD_some, max_eq_left hle]

theorem rung_stamped {u : ℕ} (hle : version ≤ u) (hnewest : ∀ w ∈ s.newest, w ≤ u)
    (hcall : (claimRing u s.stamp).1 = true) :
    Rung version (s.stamped u (claimRing u s.stamp).2) := by
  have hlast : (s.stamped u (claimRing u s.stamp).2).newest = some u := by
    cases hw : s.newest with
    | none =>
      show some (max u (s.newest.getD 0)) = _
      rw [hw, Option.getD_none, max_eq_left (Nat.zero_le u)]
    | some w => exact newest_stamped hw (hnewest w hw)
  refine ⟨u, hlast, hle, ?_⟩
  rintro rfl
  show malformedStamp (claimRing u s.stamp).2 = true ∨ observedStamp (claimRing u s.stamp).2 = _
  rw [claimRing_snd hcall]
  exact observedStamp_encodeStamp u

/-- **A claim keeps a version rung**, and does not ring it again unless it finds the stamp
corrupt. -/
theorem rung_claim {listener : ℕ} {fate : Fate} (h : Rung version s)
    (hok : s.OnTime (.claim listener fate)) (hkept : ¬ Frees version s (.claim listener fate)) :
    Rung version (s.step (.claim listener fate)) ∧ ¬ Rings version s (.claim listener fate) := by
  obtain ⟨w, hnewest, hle, hstamp⟩ := h
  have hsound : ∀ u, s.seen listener = some u → fate ≠ .busy → fate ≠ .diesBefore →
      malformedStamp s.stamp = false := by
    intro u hu hbusy hdies
    by_contra hbad
    exact hkept ⟨by rw [hu]; rfl, hbusy, hdies, Bool.not_eq_false _ ▸ hbad⟩
  constructor
  · show Rung version (s.afterClaim listener fate)
    unfold afterClaim
    split
    · exact ⟨w, hnewest, hle, hstamp⟩
    · exact ⟨w, hnewest, hle, hstamp⟩
    · exact ⟨w, hnewest, hle, hstamp⟩
    · rename_i u hu
      rw [if_neg (by rw [hsound u hu (by decide) (by decide)]; decide)]
      exact ⟨w, hnewest, hle, hstamp⟩
    all_goals
      rename_i u hu
      split
      · rename_i hcall
        obtain ⟨-, hlate⟩ := hok u hu (by decide) hcall
        exact rung_stamped (hle.trans (hlate w hnewest)) hlate hcall
      · exact ⟨w, hnewest, hle, hstamp⟩
  · rintro ⟨hseen, hanswer⟩
    have hreturns : fate = .returns := by
      cases fate <;> first | rfl | cases hanswer
    subst hreturns
    have hcall : (claimRing version s.stamp).1 = true := Option.some.inj hanswer
    have hsame : w = version :=
      le_antisymm ((hok version hseen (.inr rfl) hcall).2 w hnewest) hle
    have hgood := hsound version hseen (by decide) (by decide)
    rcases hstamp hsame with hbad | hobserved
    · rw [hgood] at hbad
      cases hbad
    · rcases claimRing_fst.mp hcall with hbad | hother
      · rw [hgood] at hbad
        cases hbad
      · exact hother hobserved

/-- **A step keeps a version rung** that it does not free, and does not ring it again. -/
theorem rung_step (h : Rung version s) (hok : s.OnTime a) (hkept : ¬ Frees version s a) :
    Rung version (s.step a) ∧ ¬ Rings version s a := by
  cases a with
  | advance next =>
    refine ⟨?_, fun hring => hring⟩
    show Rung version (if s.cursor < next then _ else s)
    split <;> exact h
  | read listener => exact ⟨h, fun hring => hring⟩
  | claim listener fate => exact rung_claim h hok hkept
  | damage raw =>
    refine ⟨?_, fun hring => hring⟩
    obtain ⟨w, hnewest, hle, hstamp⟩ := h
    show Rung version (if malformedStamp (some raw) then _ else s)
    split
    · rename_i hbad
      exact ⟨w, hnewest, hle, fun _ => .inl hbad⟩
    · exact ⟨w, hnewest, hle, hstamp⟩
  | release released fate =>
    refine ⟨?_, fun hring => hring⟩
    obtain ⟨w, hnewest, hle, hstamp⟩ := h
    have hreleased : fate = .diesAfter ∨ fate = .returns →
        Rung version { s with stamp := (releaseRingClaim released s.stamp).2 } := by
      intro hfate
      by_cases hmine : observedStamp s.stamp = some ↑released
      · have hcall : releaseRingClaim released s.stamp = (true, none) := if_pos hmine
        obtain ⟨hreturns, hgood⟩ := hok hfate (by rw [hcall])
        refine ⟨w, hnewest, hle, fun hsame => ?_⟩
        rcases hstamp hsame with hbad | hobserved
        · rw [hgood] at hbad
          cases hbad
        · have hversion : released = version := by
            have hint := Option.some.inj (hmine.symm.trans hobserved)
            exact Int.ofNat.inj hint
          exact absurd ⟨hversion, hreturns, by rw [← hversion, hcall]⟩ hkept
      · have hcall : releaseRingClaim released s.stamp = (false, s.stamp) := if_neg hmine
        rw [hcall]
        exact ⟨w, hnewest, hle, hstamp⟩
    cases fate with
    | busy => exact ⟨w, hnewest, hle, hstamp⟩
    | diesBefore => exact ⟨w, hnewest, hle, hstamp⟩
    | diesBetween => exact ⟨w, hnewest, hle, hstamp⟩
    | diesAfter => exact hreleased (.inl rfl)
    | returns => exact hreleased (.inr rfl)

theorem rung_of_rings (hok : s.OnTime a) (hring : Rings version s a) :
    Rung version (s.step a) := by
  cases a with
  | claim listener fate =>
    obtain ⟨hseen, hanswer⟩ := hring
    have hreturns : fate = .returns := by
      cases fate <;> first | rfl | cases hanswer
    subst hreturns
    have hcall : (claimRing version s.stamp).1 = true := Option.some.inj hanswer
    obtain ⟨-, hlate⟩ := hok version hseen (.inr rfl) hcall
    show Rung version (s.afterClaim listener .returns)
    unfold afterClaim
    rw [hseen]
    simp only
    rw [if_pos hcall]
    exact rung_stamped le_rfl hlate hcall
  | advance _ => exact hring.elim
  | read _ => exact hring.elim
  | release _ _ => exact hring.elim
  | damage _ => exact hring.elim

/-- **A version that was not rung can be claimed**, and stays so until it rings. -/
theorem claimable_step (h : (claimRing version s.stamp).1 = true) (hok : s.OnTime a)
    (hsilent : ¬ Rings version s a) : (claimRing version (s.step a).stamp).1 = true := by
  have hnone : (claimRing version none).1 = true := claimRing_fst.mpr (.inr nofun)
  cases a with
  | advance next =>
    show (claimRing version (if s.cursor < next then _ else s).stamp).1 = true
    split <;> exact h
  | read listener => exact h
  | damage raw =>
    show (claimRing version (if malformedStamp (some raw) then _ else s).stamp).1 = true
    split
    · rename_i hbad
      exact claimRing_fst.mpr (.inl hbad)
    · exact h
  | release released fate =>
    have hreleased : (claimRing version (releaseRingClaim released s.stamp).2).1 = true := by
      unfold releaseRingClaim
      split
      · exact hnone
      · exact h
    cases fate with
    | busy => exact h
    | diesBefore => exact h
    | diesBetween => exact h
    | diesAfter => exact hreleased
    | returns => exact hreleased
  | claim listener fate =>
    show (claimRing version (s.afterClaim listener fate).stamp).1 = true
    unfold afterClaim
    split
    · exact h
    · exact h
    · exact h
    · split
      · exact hnone
      · exact h
    all_goals
      rename_i u hu
      split
      · rename_i hcall
        obtain ⟨hreturns, -⟩ := hok u hu (by decide) hcall
        have hother : u ≠ version := by
          rintro rfl
          exact hsilent ⟨hu, by rw [hreturns]; exact congrArg some hcall⟩
        show (claimRing version (claimRing u s.stamp).2).1 = true
        rw [claimRing_snd hcall]
        refine claimRing_fst.mpr ((observedStamp_encodeStamp u).imp_right fun hobserved hsame => ?_)
        exact hother (Int.ofNat.inj (Option.some.inj (hobserved.symm.trans hsame)))
      · exact h

end RingState

open RingState

/-- **One ring for a version**: in every run whose steps meet the condition, between two claims
of a version that return true one frees it; and as long as no claim of the newest version has
returned true, the next that gets the lock does. -/
theorem one_ring_per_version (cursor : ℕ) {actions : List RingAction}
    (hmeets : Machine.Meets step OnTime (start cursor) actions) :
    (∀ version before a between b after, actions = before ++ a :: (between ++ b :: after) →
      let s := run (start cursor) before
      Rings version s a → Rings version (run (s.step a) between) b →
        ¬ Machine.Meets step (fun s a => ¬ Frees version s a) (s.step a) (between ++ [b])) ∧
    let s := run (start cursor) actions
    Machine.Meets step (fun t a => ¬ Rings s.cursor t a) (start cursor) actions →
      s.claimAnswer s.cursor .returns = some true := by
  constructor
  · rintro version before a between b after rfl s hfirst hsecond hkept
    obtain ⟨-, hok, hrest⟩ := (Machine.meets_append _).mp hmeets
    obtain ⟨hokBetween, hokLast, -⟩ := (Machine.meets_append _).mp hrest
    obtain ⟨hkeptBetween, hkeptLast, -⟩ := (Machine.meets_append _).mp hkept
    have hrung : Rung version (run (s.step a) between) := by
      refine Machine.run_invariant_of_meets (fun t c ht hc => ?_) (rung_of_rings hok hfirst)
        (hokBetween.and hkeptBetween)
      exact (rung_step ht hc.1 hc.2).1
    exact (rung_step hrung hokLast hkeptLast).2 hsecond
  · intro s hsilent
    have hstart : (claimRing s.cursor (start cursor).stamp).1 = true :=
      claimRing_fst.mpr (.inr nofun)
    have hstep : ∀ (t : RingState) (c : RingAction), (claimRing s.cursor t.stamp).1 = true →
        OnTime t c ∧ ¬ Rings s.cursor t c → (claimRing s.cursor (t.step c).stamp).1 = true :=
      fun t c ht hc => claimable_step ht hc.1 hc.2
    have hend : (claimRing s.cursor s.stamp).1 = true :=
      Machine.run_invariant_of_meets hstep hstart (hmeets.and hsilent)
    exact congrArg some hend

/-! ### A stale listener -/

/-- The first listener reads a version, and two others the next one. -/
def threeListeners : List RingAction :=
  [.read 0, .advance 2, .read 1, .read 2, .claim 1 .returns]

/-- A ring that is released, and claimed again. -/
theorem one_ring_per_version_released :
    let actions := threeListeners ++ [.release 2 .returns, .claim 2 .returns]
    (∀ version before a between b after, actions = before ++ a :: (between ++ b :: after) →
      let s := run (start 1) before
      Rings version s a → Rings version (run (s.step a) between) b →
        ¬ Machine.Meets step (fun s a => ¬ Frees version s a) (s.step a) (between ++ [b])) ∧
    let s := run (start 1) actions
    Machine.Meets step (fun t a => ¬ Rings s.cursor t a) (start 1) actions →
      s.claimAnswer s.cursor .returns = some true := by
  refine one_ring_per_version 1 ⟨trivial, trivial, trivial, trivial, ?_, ?_, ?_, trivial⟩
  · exact fun _ _ _ _ => ⟨rfl, nofun⟩
  · exact fun _ _ => ⟨rfl, by decide⟩
  · rintro version hseen - -
    cases hseen
    refine ⟨rfl, fun w hw => ?_⟩
    cases hw
    exact le_rfl

/-- The state in which all three have read. -/
def twoVersions : RingState := run (start 1) [.read 0, .advance 2, .read 1, .read 2]

/-- **One version rings twice**: a listener with a stale version overwrites the stamp of the
newer one, and nothing was released. -/
theorem stale_claim_rings_twice :
    Rings 2 twoVersions (.claim 1 .returns) ∧
      Rings 2 (run (twoVersions.step (.claim 1 .returns)) [.claim 0 .returns])
        (.claim 2 .returns) ∧
      Machine.Meets step (fun s a => ¬ Frees 2 s a) (twoVersions.step (.claim 1 .returns))
        [.claim 0 .returns, .claim 2 .returns] := by
  refine ⟨⟨rfl, by decide +kernel⟩, ⟨rfl, by decide +kernel⟩, fun h => ?_, fun h => ?_, trivial⟩
  · exact absurd h.2.2.2 (by decide +kernel)
  · exact absurd h.2.2.2 (by decide +kernel)

end GoalFlight.Wake
