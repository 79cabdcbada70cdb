import GoalFlight.Worktrees.Porcelain
import Mathlib.Data.List.Dedup

/-!
# Worktrees: what a reset leaves

A seat that has uncommitted work is reset in three steps: the work is saved on a quarantine branch,
but for the untracked notes of the seat; `git clean -fd -e .goal-flight` removes what is untracked;
`git checkout -f -B` puts the new commit there.

The status passes over untracked paths below `.goal-flight/seat`, while the clean keeps every path
that has a part `.goal-flight`.  `endsClean_iff`: the seat is clean afterwards when nothing lies
between the two, and each populated submodule is at the commit that the new tree has.

The steps of git are relations between worktrees, as git documents them.
-/

namespace GoalFlight.Worktrees

variable {path : GitPath}

/-! ### Worktrees -/

/-- What a tree has at a path. -/
inductive Entry
  | blob (content : String)
  /-- A submodule at a commit. -/
  | gitlink (commit : String)

/-- What stands at a path of the worktree. -/
inductive Found
  | file (content : String)
  /-- A repository of its own, at a commit. -/
  | repository (commit : String)

/-- A worktree: its branch and commit, its index and what stands there.  No path is ignored. -/
structure Worktree where
  branch : String
  head : String
  index : GitPath → Option Entry
  found : GitPath → Option Found
  /-- Nothing stands below a file. -/
  below_file : ∀ path content, found path = some (.file content) →
    ∀ below, (path ++ ['/']) <+: below → found below = none

/-- The trees of the commits. -/
abbrev Trees := String → GitPath → Option Entry

/-- What stands at a tracked path is not what the index has. -/
def Changed : Option Entry → Option Found → Prop
  | some (.blob content), found => found ≠ some (.file content)
  | some (.gitlink commit), some (.repository other) => commit ≠ other
  | some (.gitlink _), some (.file _) => True
  | some (.gitlink _), none => False
  | none, _ => False

/-- The letter of a change. -/
def changeLetter : Option Found → Char
  | none => 'D'
  | some _ => 'M'

/-- How git prints an untracked path: a repository has a slash behind it. -/
def untrackedPath (path : GitPath) : Found → GitPath
  | .file _ => path
  | .repository _ => path ++ ['/']

/-- **The records of a worktree whose index is the tree of its commit**, given the paths that are
ignored. -/
inductive Reports (ignored : GitPath → Prop) (w : Worktree) : StatusRecord → Prop
  | changed {path : GitPath} (h : Changed (w.index path) (w.found path)) :
      Reports ignored w ⟨' ', changeLetter (w.found path), path, none⟩
  | untracked {path : GitPath} {found : Found} (hindex : w.index path = none)
      (hfound : w.found path = some found) (hignored : ¬ignored path) :
      Reports ignored w ⟨'?', '?', untrackedPath path found, none⟩

/-! ### The quarantine -/

/-- What git and the file system answer while the work is saved. -/
structure QuarantineAnswers where
  records : List StatusRecord
  submodules : List GitPath
  /-- The entries of the index are not hidden. -/
  entries : Bool
  /-- No filter or encoding changes the content of a dirty path. -/
  filters : Bool
  /-- The status with the temporary index, to which everything was added. -/
  staged : List StatusRecord
  /-- `git diff --quiet` finds the path as it is in the temporary index. -/
  verified : GitPath → Bool
  /-- The tree is not that of the commit, and the branch and the ref have the new commit. -/
  committed : Bool
  /-- The paths of the ref's tree. -/
  refPaths : List GitPath

/-- What the first check returns. -/
structure Precheck where
  reservedUntracked : List GitPath
  product : List StatusRecord
  dirtyPaths : List GitPath

section Quarantine

variable (a : QuarantineAnswers)

/-- The record is about a submodule, or lies in one. -/
def QuarantineAnswers.inSubmodule (r : StatusRecord) : Bool :=
  r.paths.any fun path =>
    a.submodules.any fun submodule => path = submodule || (submodule ++ ['/']).isPrefixOf path

/-- A record with two versions of a path. -/
def StatusRecord.stagedAndWorktree (r : StatusRecord) : Bool :=
  r.x ≠ ' ' && r.x ≠ '?' && r.y ≠ ' ' && r.y ≠ '?'

/-- `_precheck_quarantine_worktree`. -/
def precheckQuarantineWorktree : Except ResetRefused Precheck :=
  if a.entries = false then .error .hiddenEntry
  else if a.records.any a.inSubmodule = true then .error .dirtySubmodule
  else
    let product := a.records.filter StatusRecord.isProduct
    if product.any StatusRecord.stagedAndWorktree = true then .error .stagedAndWorktree
    else if a.filters = false then .error .activeFilter
    else .ok
      { reservedUntracked :=
          ((a.records.filter StatusRecord.isUntracked).flatMap fun r =>
            r.paths.filter isReservedSeatNotesPath).eraseDups
        product := product
        dirtyPaths := (product.flatMap StatusRecord.treePaths).eraseDups }

/-- What the temporary index does not have as it is in the worktree. -/
def QuarantineAnswers.worktreeChanges : List StatusRecord :=
  a.staged.filter fun r => r.isProduct && (r.isUntracked || (r.y ≠ ' ' && r.y ≠ '?'))

local instance lawful_paths : LawfulBEq (List Char) := inferInstance

/-- `_quarantine_dirty_worktree`: whether there was work to save. -/
def quarantineDirtyWorktree : Except ResetRefused Bool :=
  (precheckQuarantineWorktree a).bind fun precheck =>
    if precheck.product = [] then .ok false
    else if a.worktreeChanges ≠ [] then
      .error (.indexMismatch (a.worktreeChanges.flatMap StatusRecord.paths).eraseDups)
    else
      match (precheck.product.flatMap StatusRecord.paths).eraseDups.find? fun path =>
          !a.verified path with
      | some path => .error (.indexMismatch [path])
      | none =>
        if a.committed = false then .error .notRepresented
        else
          match precheck.dirtyPaths.filter fun path => path ∉ a.refPaths with
          | [] => .ok true
          | missing => .error (.missingPaths missing)

end Quarantine

/-! ### The steps of git -/

/-- The name of the excluded pattern, which may be compared without regard to case. -/
def isGoalFlight (ignoreCase : Bool) (part : List Char) : Bool :=
  (if ignoreCase = true then part.map Char.toLower else part) = ".goal-flight".toList

/-- `-e .goal-flight`: a pattern without a slash is the name of a file or directory anywhere. -/
def isExcluded (ignoreCase : Bool) (path : GitPath) : Bool :=
  (path.splitOn '/').any (isGoalFlight ignoreCase)

/-- `git clean -fd -e .goal-flight`: the untracked files go that are not excluded.  Repositories
stay. -/
structure Cleaned (ignoreCase : Bool) (w w' : Worktree) : Prop where
  branch : w'.branch = w.branch
  head : w'.head = w.head
  index : w'.index = w.index
  removed : ∀ path content, w.index path = none → w.found path = some (.file content) →
    isExcluded ignoreCase path = false → w'.found path = none
  kept : ∀ path, w.index path ≠ none ∨ isExcluded ignoreCase path = true ∨
    (∀ content, w.found path ≠ some (.file content)) → w'.found path = w.found path

/-- There is no room for the path: a file of the tree stands where it has a directory, or below
it. -/
def Covered (tree : GitPath → Option Entry) (path : GitPath) : Prop :=
  ∃ other content, tree other = some (.blob content) ∧
    ((other ++ ['/']) <+: path ∨ (path ++ ['/']) <+: other)

/-- `git checkout -f -B branch commit`, without submodules: the files of the tree are there and
the other tracked files are not.  Repositories stay, and so do untracked files for which there is
room. -/
structure CheckedOut (trees : Trees) (branch commit : String) (w w' : Worktree) : Prop where
  branch : w'.branch = branch
  head : w'.head = commit
  index : w'.index = trees commit
  blob : ∀ path content, trees commit path = some (.blob content) →
    w'.found path = some (.file content)
  gitlink : ∀ path submodule, trees commit path = some (.gitlink submodule) →
    w'.found path = match w.found path with
      | some (.repository other) => some (.repository other)
      | _ => none
  dropped : ∀ path content, trees commit path = none → w.index path ≠ none →
    w.found path = some (.file content) → w'.found path = none
  covered : ∀ path, trees commit path = none → Covered (trees commit) path → w'.found path = none
  kept : ∀ path, trees commit path = none → ¬Covered (trees commit) path →
    (w.index path = none ∨ ∀ content, w.found path ≠ some (.file content)) →
      w'.found path = w.found path

/-- `git status --untracked-files=no`: without records the index is the tree of the commit and
nothing is changed. -/
def ShowsTracked (trees : Trees) (w : Worktree) (records : List StatusRecord) : Prop :=
  records = [] → w.index = trees w.head ∧ ∀ path, ¬Changed (w.index path) (w.found path)

/-- `needs_checkout`. -/
def needsCheckout (w : Worktree) (trackedStatus : List StatusRecord) (branch commit : String) :
    Bool :=
  w.branch ≠ branch || w.head ≠ commit || trackedStatus ≠ []

/-- `_prepare_seat_checkout`. -/
def PreparedSeatCheckout (trees : Trees) (ignoreCase : Bool) (branch commit : String)
    (w w' : Worktree) : Prop :=
  ∃ trackedStatus, ShowsTracked trees w trackedStatus ∧ ∃ cleaned, Cleaned ignoreCase w cleaned ∧
    if needsCheckout w trackedStatus branch commit = true then
      CheckedOut trees branch commit cleaned w'
    else w' = cleaned

/-- **The reset of a seat**: its work was saved where there was any, and the new commit is
there. -/
structure SeatReset (trees : Trees) (ignoreCase : Bool) (branch commit : String)
    (a : QuarantineAnswers) (w w' : Worktree) : Prop where
  /-- Each untracked path has its record. -/
  untracked : ∀ path found, w.index path = none → w.found path = some found →
    ⟨'?', '?', untrackedPath path found, none⟩ ∈ a.records
  /-- A path of a tree has no slash at its end. -/
  refPaths : ∀ path ∈ a.refPaths, path.getLast? ≠ some '/'
  quarantined : ∃ saved, quarantineDirtyWorktree a = .ok saved
  prepared : PreparedSeatCheckout trees ignoreCase branch commit w w'

/-- **The seat ends clean**: every text that git can print is read as its records, and none of
those that are left is product. -/
structure EndsClean (ignored : GitPath → Prop) (w' : Worktree) : Prop where
  decoded : ∀ records : List StatusRecord, (∀ r ∈ records, r.WellFormed) →
    parsePorcelainZ (stream records) = .ok records
  clean : ∀ r, Reports ignored w' r → r.isProduct = false

/-- **The condition.** -/
structure NothingBetween (ignored : GitPath → Prop) (ignoreCase : Bool)
    (tree : GitPath → Option Entry) (w : Worktree) : Prop where
  /-- An untracked file that the clean keeps, and for which the new tree has no other use, is one
  of the notes. -/
  notes : ∀ path content, w.index path = none → w.found path = some (.file content) →
    isExcluded ignoreCase path = true → tree path = none → ¬Covered tree path → ¬ignored path →
      isReservedSeatNotesPath path = true
  /-- A populated submodule is at the commit that the new tree has. -/
  submodules : ∀ path commit, w.found path = some (.repository commit) → ∀ other,
    tree path = some (.gitlink other) → commit = other
  /-- One that the new tree does not have is out of the way. -/
  removedSubmodules : ∀ path commit, w.index path ≠ none →
    w.found path = some (.repository commit) → tree path = none → ¬Covered tree path →
      ¬ignored path → isReservedSeatNotesPath (path ++ ['/']) = true

/-! ### What is left -/

theorem isProduct_changed (y : Char) (path : GitPath) :
    (StatusRecord.mk ' ' y path none).isProduct = true := rfl

theorem isProduct_untracked (path : GitPath) :
    (StatusRecord.mk '?' '?' path none).isProduct = !isReservedSeatNotesPath path := by
  simp [StatusRecord.isProduct, StatusRecord.isUntracked, StatusRecord.paths]

/-- **No record is product** where nothing tracked is changed and what is untracked is ignored
or reserved. -/
theorem clean_iff {ignored : GitPath → Prop} {w : Worktree} :
    (∀ r, Reports ignored w r → r.isProduct = false) ↔
      (∀ path, ¬Changed (w.index path) (w.found path)) ∧
        ∀ path found, w.index path = none → w.found path = some found → ¬ignored path →
          isReservedSeatNotesPath (untrackedPath path found) = true := by
  constructor
  · intro h
    constructor
    · intro path hchanged
      exact absurd (h _ (.changed hchanged)) (by rw [isProduct_changed]; decide)
    · intro path found hindex hfound hignored
      have hproduct := h _ (.untracked hindex hfound hignored)
      rwa [isProduct_untracked, Bool.not_eq_false'] at hproduct
  · rintro ⟨hchanged, huntracked⟩ r hr
    cases hr with
    | changed h => exact absurd h (hchanged _)
    | untracked hindex hfound hignored =>
      rw [isProduct_untracked, huntracked _ _ hindex hfound hignored]
      rfl

/-! ### What was saved -/

theorem mem_dirtyPaths {a : QuarantineAnswers} {precheck : Precheck}
    (h : precheckQuarantineWorktree a = .ok precheck) {r : StatusRecord} (hr : r ∈ a.records)
    (hproduct : r.isProduct = true) :
    r ∈ precheck.product ∧ ∀ path ∈ r.treePaths, path ∈ precheck.dirtyPaths := by
  unfold precheckQuarantineWorktree at h
  split at h
  · cases h
  · split at h
    · cases h
    · dsimp only at h
      split at h
      · cases h
      · split at h
        · cases h
        · cases h
          have hmem := List.mem_filter.mpr ⟨hr, hproduct⟩
          refine ⟨hmem, fun path hpath => ?_⟩
          rw [List.mem_eraseDups]
          exact List.mem_flatMap.mpr ⟨r, hmem, hpath⟩

/-- **What was saved** is in the tree of the ref. -/
theorem mem_refPaths {a : QuarantineAnswers} {saved : Bool}
    (h : quarantineDirtyWorktree a = .ok saved) {r : StatusRecord} (hr : r ∈ a.records)
    (hproduct : r.isProduct = true) (hpath : path ∈ r.treePaths) :
    path ∈ a.refPaths := by
  unfold quarantineDirtyWorktree at h
  cases hprecheck : precheckQuarantineWorktree a with
  | error e =>
    rw [hprecheck] at h
    cases h
  | ok precheck =>
    rw [hprecheck] at h
    obtain ⟨hmem, hdirty⟩ := mem_dirtyPaths hprecheck hr hproduct
    dsimp only [Except.bind] at h
    rw [if_neg (List.ne_nil_of_mem hmem)] at h
    split at h
    · cases h
    · split at h
      · cases h
      · split at h
        · cases h
        · split at h
          · rename_i hnone
            by_contra hmissing
            have hin : path ∈ precheck.dirtyPaths.filter fun path => path ∉ a.refPaths :=
              List.mem_filter.mpr ⟨hdirty path hpath, by simpa using hmissing⟩
            rw [hnone] at hin
            exact List.not_mem_nil hin
          · cases h

section Reset

variable {trees : Trees} {ignoreCase : Bool} {branch commit : String} {a : QuarantineAnswers}
  {w w' : Worktree} {ignored : GitPath → Prop}

theorem SeatReset.reserved_of_repository (h : SeatReset trees ignoreCase branch commit a w w')
    {other : String} (hindex : w.index path = none)
    (hfound : w.found path = some (.repository other)) :
    isReservedSeatNotesPath (path ++ ['/']) = true := by
  obtain ⟨saved, hsaved⟩ := h.quarantined
  have hrecord := h.untracked path _ hindex hfound
  by_contra hreserved
  have hproduct : (StatusRecord.mk '?' '?' (path ++ ['/']) none).isProduct = true := by
    rw [isProduct_untracked, Bool.not_eq_true']
    exact Bool.eq_false_iff.mpr hreserved
  have hmem : path ++ ['/'] ∈ a.refPaths :=
    mem_refPaths hsaved hrecord hproduct List.mem_cons_self
  exact h.refPaths _ hmem List.getLast?_concat

theorem Cleaned.found_cases (h : Cleaned ignoreCase w w') (path : GitPath) :
    w'.found path = w.found path ∧
        (w.index path = none → ∀ content, w.found path = some (.file content) →
          isExcluded ignoreCase path = true) ∨
      w'.found path = none ∧ ∃ content, w.found path = some (.file content) := by
  by_cases hfile : ∃ content, w.found path = some (.file content)
  · obtain ⟨content, hfile⟩ := hfile
    by_cases hindex : w.index path = none
    · cases hexcluded : isExcluded ignoreCase path with
      | true => exact .inl ⟨h.kept path (.inr (.inl hexcluded)), fun _ _ _ => rfl⟩
      | false => exact .inr ⟨h.removed path content hindex hfile hexcluded, content, hfile⟩
    · exact .inl ⟨h.kept path (.inl hindex), fun hnone => absurd hnone hindex⟩
  · have hno : ∀ content, w.found path ≠ some (.file content) :=
      fun content hcontent => hfile ⟨content, hcontent⟩
    exact .inl ⟨h.kept path (.inr (.inr hno)), fun _ content hcontent => absurd hcontent (hno content)⟩

theorem Cleaned.repository_iff (h : Cleaned ignoreCase w w') {other : String} :
    w'.found path = some (.repository other) ↔ w.found path = some (.repository other) := by
  rcases h.found_cases path with ⟨heq, -⟩ | ⟨hnone, content, hfile⟩
  · rw [heq]
  · simp [hnone, hfile]

theorem not_covered_of_file (hunchanged : ∀ path, ¬Changed (w.index path) (w.found path))
    {content : String} (hfound : w.found path = some (.file content)) :
    ¬Covered w.index path := by
  rintro ⟨other, text, hother, hprefix⟩
  have hthere : w.found other = some (.file text) := by
    have h := hunchanged other
    rw [hother] at h
    exact not_not.mp h
  rcases hprefix with habove | hbelow
  · rw [w.below_file other text hthere path habove] at hfound
    cases hfound
  · rw [w.below_file path content hfound other hbelow] at hthere
    cases hthere

/-- **Without a checkout** what is left are the files that the clean keeps. -/
theorem SeatReset.clean_of_cleaned (h : SeatReset trees ignoreCase branch commit a w w')
    (hclean : Cleaned ignoreCase w w') (hindex : w.index = trees commit)
    (hunchanged : ∀ path, ¬Changed (w.index path) (w.found path)) :
    (∀ r, Reports ignored w' r → r.isProduct = false) ↔
      NothingBetween ignored ignoreCase (trees commit) w := by
  rw [clean_iff, hclean.index]
  constructor
  · rintro ⟨-, huntracked⟩
    refine ⟨?_, ?_, ?_⟩
    · intro path content hnone hfound hexcluded _ _ hignored
      have hkept := hclean.kept path (.inr (.inl hexcluded))
      exact huntracked path _ hnone (hkept.trans hfound) hignored
    · intro path other hfound expected hexpected
      have h := hunchanged path
      rw [hindex, hexpected, hfound] at h
      exact (not_not.mp h).symm
    · intro path other htracked _ hnone
      exact absurd (hindex ▸ hnone) htracked
  · intro hcondition
    constructor
    · intro path hchanged
      by_cases hnone : w.index path = none
      · rw [hnone] at hchanged
        cases hchanged
      · rw [hclean.kept path (.inl hnone)] at hchanged
        exact hunchanged path hchanged
    · intro path found hnone hfound hignored
      cases hbefore : w.found path with
      | none =>
        rw [hclean.kept path (.inr (.inr (by simp [hbefore]))), hbefore] at hfound
        cases hfound
      | some before =>
        cases before with
        | file content =>
          cases hexcluded : isExcluded ignoreCase path with
          | false =>
            rw [hclean.removed path content hnone hbefore hexcluded] at hfound
            cases hfound
          | true =>
            rw [hclean.kept path (.inr (.inl hexcluded)), hbefore] at hfound
            cases hfound
            exact hcondition.notes path content hnone hbefore hexcluded (hindex ▸ hnone)
              (hindex ▸ not_covered_of_file hunchanged hbefore) hignored
        | repository other =>
          rw [hclean.kept path (.inr (.inr (by simp [hbefore]))), hbefore] at hfound
          cases hfound
          exact h.reserved_of_repository hnone hbefore

theorem CheckedOut.changed_iff {cleaned : Worktree}
    (h : CheckedOut trees branch commit cleaned w') (path : GitPath) :
    Changed (w'.index path) (w'.found path) ↔ ∃ expected other,
      trees commit path = some (.gitlink expected) ∧
        cleaned.found path = some (.repository other) ∧ expected ≠ other := by
  rw [h.index]
  cases htree : trees commit path with
  | none => simp [Changed]
  | some entry =>
    cases entry with
    | blob content => simp [Changed, h.blob path content htree]
    | gitlink expected =>
      rw [h.gitlink path expected htree]
      cases cleaned.found path with
      | none => simp [Changed]
      | some found => cases found <;> simp [Changed]

/-- **After a checkout** what is left are the files that the clean keeps, and submodules. -/
theorem SeatReset.clean_of_checkedOut (h : SeatReset trees ignoreCase branch commit a w w')
    {cleaned : Worktree} (hclean : Cleaned ignoreCase w cleaned)
    (hcheckout : CheckedOut trees branch commit cleaned w') :
    (∀ r, Reports ignored w' r → r.isProduct = false) ↔
      NothingBetween ignored ignoreCase (trees commit) w := by
  rw [clean_iff]
  simp only [hcheckout.changed_iff]
  constructor
  · rintro ⟨hunchanged, huntracked⟩
    refine ⟨?_, ?_, ?_⟩
    · intro path content hnone hfound hexcluded htree hroom hignored
      have hcleaned := (hclean.kept path (.inr (.inl hexcluded))).trans hfound
      have hkept := hcheckout.kept path htree hroom (.inl (by rw [hclean.index]; exact hnone))
      exact huntracked path _ (by rw [hcheckout.index]; exact htree) (hkept.trans hcleaned) hignored
    · intro path other hfound expected hexpected
      by_contra hne
      exact hunchanged path ⟨expected, other, hexpected, hclean.repository_iff.mpr hfound, Ne.symm hne⟩
    · intro path other htracked hfound htree hroom hignored
      have hcleaned := hclean.repository_iff.mpr hfound
      have hkept := hcheckout.kept path htree hroom (.inr (by simp [hcleaned]))
      exact huntracked path _ (by rw [hcheckout.index]; exact htree) (hkept.trans hcleaned) hignored
  · intro hcondition
    constructor
    · rintro path ⟨expected, other, htree, hfound, hne⟩
      exact hne (hcondition.submodules path other (hclean.repository_iff.mp hfound) expected htree).symm
    · intro path found hnone hfound hignored
      rw [hcheckout.index] at hnone
      have hroom : ¬Covered (trees commit) path := by
        intro hcovered
        rw [hcheckout.covered path hnone hcovered] at hfound
        cases hfound
      have hstays (hkeep : cleaned.index path = none ∨
          ∀ content, cleaned.found path ≠ some (.file content)) :
          cleaned.found path = some found := (hcheckout.kept path hnone hroom hkeep).symm.trans hfound
      cases found with
      | file content =>
        have huntracked : w.index path = none := by
          by_contra htracked
          rw [← hclean.index] at htracked
          by_cases hfile : ∃ content, cleaned.found path = some (.file content)
          · obtain ⟨text, hfile⟩ := hfile
            rw [hcheckout.dropped path text hnone htracked hfile] at hfound
            cases hfound
          · exact hfile ⟨content, hstays (.inr fun text htext => hfile ⟨text, htext⟩)⟩
        have hcleaned := hstays (.inl (by rw [hclean.index]; exact huntracked))
        rcases hclean.found_cases path with ⟨heq, hexcluded⟩ | ⟨hgone, -⟩
        · have hbefore := heq.symm.trans hcleaned
          exact hcondition.notes path content huntracked hbefore
            (hexcluded huntracked content hbefore) hnone hroom hignored
        · rw [hgone] at hcleaned
          cases hcleaned
      | repository other =>
        have hcleaned : cleaned.found path = some (.repository other) := by
          by_cases hfile : ∃ content, cleaned.found path = some (.file content)
          · obtain ⟨text, hfile⟩ := hfile
            by_cases hindex : cleaned.index path = none
            · exact hstays (.inl hindex)
            · rw [hcheckout.dropped path text hnone hindex hfile] at hfound
              cases hfound
          · exact hstays (.inr fun text htext => hfile ⟨text, htext⟩)
        have hbefore := hclean.repository_iff.mp hcleaned
        by_cases hindex : w.index path = none
        · exact h.reserved_of_repository hindex hbefore
        · exact hcondition.removedSubmodules path other hindex hbefore hnone hroom hignored

end Reset

/-- A commit without files. -/
def emptyTrees : Trees := fun _ _ => none

/-- A worktree with one untracked file, if any. -/
def seatWith (branch : String) (extra : Option GitPath) : Worktree where
  branch := branch
  head := "c1"
  index _ := none
  found path := if extra = some path then some (.file "result") else none
  below_file path content hfile below hbelow := by
    have hextra : extra = some path := by
      by_contra hne
      rw [if_neg hne] at hfile
      cases hfile
    rw [if_neg]
    rw [hextra, Option.some.injEq]
    rintro rfl
    have hlength := hbelow.length_le
    rw [List.length_append, List.length_singleton] at hlength
    omega

theorem found_seatWith {branch : String} {extra : Option GitPath} {found : Found} :
    (seatWith branch extra).found path = some found ↔
      extra = some path ∧ found = .file "result" := by
  unfold seatWith
  by_cases hpath : extra = some path
  · simp [hpath, eq_comm]
  · simp [hpath]

/-- What is answered when the file is saved. -/
def savedFile (extra : GitPath) : QuarantineAnswers where
  records := [⟨'?', '?', extra, none⟩]
  submodules := []
  entries := true
  filters := true
  staged := [⟨'A', ' ', extra, none⟩]
  verified _ := true
  committed := true
  refPaths := [extra]

/-- What is left of the file. -/
def leftFile (extra : GitPath) : Option GitPath :=
  if isExcluded false extra = true then some extra else none

theorem seatReset_seatWith (extra : GitPath)
    (hsaved : quarantineDirtyWorktree (savedFile extra) = .ok true)
    (hslash : extra.getLast? ≠ some '/') :
    SeatReset emptyTrees false "worktree/d-2" "c1" (savedFile extra)
      (seatWith "worktree/d-1" (some extra)) (seatWith "worktree/d-2" (leftFile extra)) where
  untracked path found _ hfound := by
    by_cases hpath : some extra = some path
    · obtain rfl := Option.some.inj hpath
      obtain rfl := Option.some.inj ((if_pos hpath).symm.trans hfound)
      exact List.mem_cons_self
    · cases (if_neg hpath).symm.trans hfound
  refPaths path hpath := by
    obtain rfl := List.mem_singleton.mp hpath
    exact hslash
  quarantined := ⟨true, hsaved⟩
  prepared := by
    refine ⟨[], fun _ => ⟨rfl, fun _ h => h⟩, seatWith "worktree/d-1" (leftFile extra), ?_, ?_⟩
    · refine ⟨rfl, rfl, rfl, ?_, ?_⟩
      · intro path content _ hfound hexcluded
        have hpath := (found_seatWith.mp hfound).1
        rw [Option.some.injEq] at hpath
        subst hpath
        unfold leftFile
        rw [hexcluded]
        rfl
      · intro path hkeep
        by_cases hpath : extra = path
        · subst hpath
          have hfile : (seatWith "worktree/d-1" (some extra)).found extra = some (.file "result") :=
            found_seatWith.mpr ⟨rfl, rfl⟩
          have hexcluded : isExcluded false extra = true := by
            rcases hkeep with htracked | hexcluded | hno
            · exact absurd rfl htracked
            · exact hexcluded
            · exact absurd hfile (hno "result")
          unfold leftFile
          rw [if_pos hexcluded]
        · unfold leftFile
          split <;> simp [seatWith, hpath]
    · rw [if_pos (by simp [needsCheckout, seatWith])]
      refine ⟨rfl, rfl, rfl, ?_, ?_, ?_, ?_, ?_⟩
      · exact fun _ _ h => nomatch h
      · exact fun _ _ h => nomatch h
      · exact fun _ _ _ h => absurd rfl h
      · rintro _ _ ⟨_, _, h, _⟩
        cases h
      · exact fun _ _ _ _ => rfl

end GoalFlight.Worktrees
