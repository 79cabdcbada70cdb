import Mathlib.Data.List.Nodup
import Mathlib.Logic.Function.Basic

/-!
# Fleet: pulling files

A pull of `execute_ferry` (`scripts/goalflight_fleet_ferry.py`) receives files into a quarantine
below the destination, looks at the remote files once more, scans what was received and moves it
over the old files one by one.  Each old file is removed before the move, and the quarantine at the
end: `execute_keeps_iff` says that a pull keeps the files unless a move fails at its last step when
its target was there.

A tree has the files; whether a path is a directory is an answer of the file system.  A dry run
moves nothing, and is left out.
-/

namespace GoalFlight.Fleet

/-! ### A pull -/

/-- What a preflight says of a path, and nothing of one that it does not list. -/
structure FileInfo where
  present : Bool
  isRegularFile : Option Bool
  size : Option ℕ
  ctimeNs : Option ℕ
deriving DecidableEq

/-- What the file system answers to a move: the parents are made, the target is a directory, the
old file is removed, the new one is moved. -/
structure MoveAnswers where
  mkdir : Bool
  isDir : Bool
  unlink : Bool
  replace : Bool

/-- The files of a tree. -/
abbrev Tree (Content : Type) := String → Option Content

/-- What a pull that is no dry run is called with, and what it is answered. -/
structure Pull (Content : Type) where
  /-- `transfer_files`: keys of a dictionary. -/
  files : List String
  nodup : files.Nodup
  maxFileBytes : ℕ
  sourceMetadata : String → FileInfo
  /-- Nothing before `rsync` raises. -/
  admitted : Bool
  rsync : Bool
  /-- The second preflight, unless it raises. -/
  postflight : Option (String → FileInfo)
  /-- The files of the quarantine behind `rsync`. -/
  received : Tree Content
  /-- The scans of the received files find nothing. -/
  scanned : Bool
  move : String → MoveAnswers
  audited : Bool

namespace Pull

variable {Content : Type} (p : Pull Content)

/-- Whether a file is received as it was: not one that is gone, too large, or changed; a size that
is missing is an exception. -/
def receives (postflight : String → FileInfo) (rel : String) : Option Bool :=
  let info := postflight rel
  let before := p.sourceMetadata rel
  if !info.present then some false
  else if info.isRegularFile = some true ∧ info.size = none then none
  else if info.isRegularFile = some true ∧ info.size.any (p.maxFileBytes < ·) then some false
  else some (before.size = info.size && before.ctimeNs = info.ctimeNs &&
    before.isRegularFile = info.isRegularFile)

/-- `received_files`. -/
def receivedFiles : Option (List String) :=
  p.postflight.bind fun postflight =>
    if p.files.all fun rel => (p.receives postflight rel).isSome then
      some (p.files.filter fun rel => p.receives postflight rel = some true)
    else none

/-- A move comes to its last step: the received file is there, the parents of the target are made,
the target is no directory, and the old file is removed. -/
def reaches (dst : Tree Content) (rel : String) : Bool :=
  (p.received rel).isSome && (p.move rel).mkdir && !(p.move rel).isDir &&
    ((dst rel).isNone || (p.move rel).unlink)

/-- The move goes through. -/
def moves (dst : Tree Content) (rel : String) : Bool :=
  p.reaches dst rel && (p.move rel).replace

/-- **`_promote_pull_quarantine`**: whether it ends, and the tree. -/
def promote : List String → Tree Content → Bool × Tree Content
  | [], dst => (true, dst)
  | rel :: rest, dst =>
    if p.reaches dst rel then
      if (p.move rel).replace then promote rest (Function.update dst rel (p.received rel))
      else (false, Function.update dst rel none)
    else (false, dst)

/-- **`execute_ferry`**, for a pull: the files of the receipt, unless it raises, and the tree. -/
def execute (dst : Tree Content) : Option (List String) × Tree Content :=
  if !p.admitted then (none, dst)
  else if p.files = [] then (if p.audited then some [] else none, dst)
  else if !p.rsync then (none, dst)
  else
    match p.receivedFiles with
    | none => (none, dst)
    | some files =>
      if !p.scanned then (none, dst)
      else
        let (ended, dst) := p.promote files dst
        (if ended && p.audited then some files else none, dst)

/-! ### Old or new -/

/-- **The files are kept**: where the pull raises, each has its old content or the one that was
received and scanned; only scanned files are there; and a pull that succeeds has replaced exactly
the files of the receipt. -/
structure Keeps (dst : Tree Content) (r : Option (List String) × Tree Content) : Prop where
  kept : r.1 = none → ∀ path content, dst path = some content →
    r.2 path = some content ∨ (r.2 path).isSome = true ∧ r.2 path = p.received path
  scanned : ∀ path, r.2 path ≠ dst path →
    p.scanned = true ∧ ∃ files, p.receivedFiles = some files ∧ path ∈ files
  replaced : ∀ files, r.1 = some files → ∀ path,
    (path ∈ files → (p.received path).isSome = true) ∧
      r.2 path = if path ∈ files then p.received path else dst path

/-- **A file is lost**: the first move that does not go through comes to its last step, with an
old file removed. -/
def Loses (dst : Tree Content) : Prop :=
  p.admitted = true ∧ p.rsync = true ∧ p.scanned = true ∧ ∃ files rel,
    p.receivedFiles = some files ∧ files.find? (fun other => !p.moves dst other) = some rel ∧
      p.reaches dst rel = true ∧ (dst rel).isSome = true

variable {p} {dst : Tree Content}

theorem reaches_update {rel other : String} (content : Option Content) (h : other ≠ rel) :
    p.reaches (Function.update dst rel content) other = p.reaches dst other := by
  unfold reaches
  rw [Function.update_of_ne h]

theorem moves_update {rel other : String} (content : Option Content) (h : other ≠ rel) :
    p.moves (Function.update dst rel content) other = p.moves dst other :=
  congrArg (· && _) (reaches_update content h)

/-- **The moves of a promotion**: all go through, or one does not and those before it do. -/
theorem promote_cases (dst : Tree Content) {files : List String} (hnodup : files.Nodup) :
    ((∀ rel ∈ files, p.moves dst rel = true) ∧ p.promote files dst =
        (true, fun path => if path ∈ files then p.received path else dst path)) ∨
      ∃ before rel after, files = before ++ rel :: after ∧
        (∀ other ∈ before, p.moves dst other = true) ∧ p.moves dst rel = false ∧
        p.promote files dst = (false, fun path => if path ∈ before then p.received path
          else if path = rel ∧ p.reaches dst rel = true then none else dst path) := by
  induction files generalizing dst with
  | nil => exact .inl ⟨nofun, by simp [promote]⟩
  | cons rel rest ih =>
    obtain ⟨hrel, hrest⟩ := List.nodup_cons.mp hnodup
    unfold promote
    split
    · rename_i hreaches
      split
      · rename_i hreplace
        have hmoves : p.moves dst rel = true := by rw [moves, hreaches, hreplace, Bool.and_self]
        rcases ih (Function.update dst rel (p.received rel)) hrest with
          ⟨hall, heq⟩ | ⟨before, stuck, after, rfl, hall, hstuck, heq⟩
        · refine .inl ⟨List.forall_mem_cons.mpr ⟨hmoves, fun other h =>
            moves_update (p.received rel) (ne_of_mem_of_not_mem h hrel) ▸ hall other h⟩,
            heq.trans ?_⟩
          congr 1
          funext path
          by_cases hpath : path = rel
          · simp [hpath, hrel]
          · simp [hpath]
        · simp only [List.mem_append, List.mem_cons, not_or] at hrel
          refine .inr ⟨rel :: before, stuck, after, rfl, List.forall_mem_cons.mpr
            ⟨hmoves, fun other h =>
              moves_update (p.received rel) (ne_of_mem_of_not_mem h hrel.1) ▸ hall other h⟩,
            moves_update (p.received rel) (Ne.symm hrel.2.1) ▸ hstuck, heq.trans ?_⟩
          rw [reaches_update (p.received rel) (Ne.symm hrel.2.1)]
          congr 1
          funext path
          by_cases hpath : path = rel
          · simp [hpath, hrel]
          · simp [hpath]
      · rename_i hreplace
        refine .inr ⟨[], rel, rest, rfl, nofun, by simp [moves, hreplace], ?_⟩
        congr 1
        funext path
        simp [hreaches, Function.update_apply]
    · rename_i hreaches
      exact .inr ⟨[], rel, rest, rfl, nofun, by simp [moves, hreaches], by simp [hreaches]⟩

theorem nodup_receivedFiles {files : List String} (h : p.receivedFiles = some files) :
    files.Nodup := by
  obtain ⟨postflight, -, h⟩ := Option.bind_eq_some_iff.mp h
  rw [Option.ite_none_right_eq_some] at h
  cases h.2
  exact p.nodup.filter _

/-- A pull comes to no promotion, with the tree as it was, or it ends as its promotion does. -/
theorem execute_cases (p : Pull Content) (dst : Tree Content) :
    ((p.execute dst).2 = dst ∧ (∀ files, (p.execute dst).1 = some files → files = []) ∧
        ¬ p.Loses dst) ∨
      p.admitted = true ∧ p.rsync = true ∧ p.scanned = true ∧ ∃ files,
        p.receivedFiles = some files ∧ p.execute dst =
          (if (p.promote files dst).1 && p.audited then some files else none,
            (p.promote files dst).2) := by
  unfold execute
  split
  · exact .inl ⟨rfl, nofun, fun h => by simp_all [Loses]⟩
  split
  · rename_i hfiles
    refine .inl ⟨rfl, fun files h => ?_, ?_⟩
    · split at h
      · exact (Option.some.inj h).symm
      · cases h
    rintro ⟨-, -, -, files, rel, hreceived, hfind, -⟩
    obtain ⟨postflight, -, h⟩ := Option.bind_eq_some_iff.mp hreceived
    rw [hfiles] at h
    cases h
    cases hfind
  split
  · exact .inl ⟨rfl, nofun, fun h => by simp_all [Loses]⟩
  split
  · exact .inl ⟨rfl, nofun, fun h => by simp_all [Loses]⟩
  split
  · exact .inl ⟨rfl, nofun, fun h => by simp_all [Loses]⟩
  · rename_i files hreceived _
    exact .inr ⟨by simp_all, by simp_all, by simp_all, files, hreceived, rfl⟩

/-- **A pull keeps the files** unless a move fails at its last step when its target was there. -/
theorem execute_keeps_iff (p : Pull Content) (dst : Tree Content) :
    p.Keeps dst (p.execute dst) ↔ ¬ p.Loses dst := by
  rcases execute_cases p dst with ⟨hdst, hnone, hloses⟩ | ⟨ha, hr, hs, files, hfiles, heq⟩
  · refine iff_of_true ⟨fun _ path content h => .inl (by rw [hdst, h]),
      fun path h => absurd (congrFun hdst path) h, fun files h path => ?_⟩ hloses
    rw [hnone files h, hdst]
    exact ⟨nofun, rfl⟩
  have hreceived {rel : String} (h : p.moves dst rel = true) : (p.received rel).isSome = true := by
    simp only [moves, reaches, Bool.and_eq_true] at h
    exact h.1.1.1.1
  rw [heq]
  rcases promote_cases dst (nodup_receivedFiles hfiles) with
    ⟨hall, hpromote⟩ | ⟨before, rel, after, rfl, hall, hrel, hpromote⟩
  · rw [hpromote]
    refine iff_of_true ⟨fun _ path content h => ?_, fun path h => ?_, fun _ h path => ?_⟩ ?_
    · by_cases hpath : path ∈ files
      · exact .inr (by simpa [hpath] using hreceived (hall path hpath))
      · exact .inl (by simpa [hpath] using h)
    · by_cases hpath : path ∈ files
      · exact ⟨hs, files, hfiles, hpath⟩
      · simp [hpath] at h
    · obtain ⟨-, ⟨⟩⟩ := Option.ite_none_right_eq_some.mp h
      exact ⟨fun hpath => hreceived (hall path hpath), rfl⟩
    · rintro ⟨-, -, -, _, stuck, h, hfind, -⟩
      cases hfiles.symm.trans h
      have := hall stuck (List.mem_of_find?_eq_some hfind)
      rw [List.find?_eq_some_iff_append] at hfind
      simp [this] at hfind
  · have hfind : (before ++ rel :: after).find? (fun other => !p.moves dst other) = some rel :=
      List.find?_eq_some_iff_append.mpr
        ⟨by rw [hrel]; rfl, before, after, rfl, fun other h => by rw [hall other h]; rfl⟩
    rw [hpromote]
    constructor
    · rintro hkeeps ⟨-, -, -, _, stuck, h, hstuck, hreaches, hthere⟩
      cases hfiles.symm.trans h
      cases hfind.symm.trans hstuck
      obtain ⟨content, hcontent⟩ := Option.isSome_iff_exists.mp hthere
      have hbefore : rel ∉ before := fun h => by simp [hall rel h] at hrel
      have := hkeeps.kept rfl rel content hcontent
      simp [hbefore, hreaches] at this
    · intro hloses
      have hlost (h : p.reaches dst rel = true) : dst rel = none := by
        by_contra hthere
        exact hloses
          ⟨ha, hr, hs, _, rel, hfiles, hfind, h, Option.isSome_iff_ne_none.mpr hthere⟩
      refine ⟨fun _ path content h => ?_, fun path h => ?_, nofun⟩
      · by_cases hpath : path ∈ before
        · exact .inr (by simpa [hpath] using hreceived (hall path hpath))
        · refine .inl ?_
          simp only [hpath, if_false]
          rw [if_neg, h]
          rintro ⟨rfl, hreaches⟩
          rw [hlost hreaches] at h
          cases h
      · refine ⟨hs, _, hfiles, ?_⟩
        by_contra hpath
        simp only [List.mem_append, List.mem_cons, not_or] at hpath
        simp [hpath] at h

/-- A pull of one file whose move fails at its last step. -/
def unreplaced : Pull String where
  files := ["result.md"]
  nodup := by decide
  maxFileBytes := 1048576
  sourceMetadata _ := ⟨true, some true, some 3, some 7⟩
  admitted := true
  rsync := true
  postflight := some fun _ => ⟨true, some true, some 3, some 7⟩
  received path := if path = "result.md" then some "new" else none
  scanned := true
  move _ := ⟨true, false, true, false⟩
  audited := true

/-- The old file is gone, and the new one is not there. -/
theorem unreplaced_not_keeps :
    (unreplaced.execute fun _ => some "old").2 "result.md" = none ∧
      ¬ unreplaced.Keeps (fun _ => some "old") (unreplaced.execute fun _ => some "old") := by
  have hgone : (unreplaced.execute fun _ => some "old").2 "result.md" = none := by decide
  refine ⟨hgone, fun hkeeps => ?_⟩
  rcases hkeeps.kept (by decide) "result.md" "old" rfl with h | ⟨h, -⟩
  · rw [hgone] at h
    cases h
  · rw [hgone] at h
    cases h

end Pull

end GoalFlight.Fleet
