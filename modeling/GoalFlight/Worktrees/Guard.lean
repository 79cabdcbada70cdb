import GoalFlight.Library.Options

/-!
# Worktrees: the guard of the main checkout

`guard_worktree_mutation` refuses a git command that changes a checkout where it would change the
main one.  It reads the command line itself, and what it takes for the command is the first word;
git reads global options before the command.  `guards_iff` says for which command lines the guard
decides as it should, given the grammar of git's options; the pool's own forced checkout, which has
`-c submodule.recurse=false` before the command, is not one of them.
-/

namespace GoalFlight.Worktrees

open Options

/-! ### The repository -/

/-- The git directory, the common directory and the top level that git prints for a directory,
as real paths. -/
structure GitIdentity where
  gitDir : String
  commonDir : String
  topLevel : String

/-- What a path is. -/
inductive Place
  /-- A directory of the main worktree. -/
  | main
  /-- A directory of a linked worktree. -/
  | linked
  /-- Another directory. -/
  | elsewhere
  /-- No directory. -/
  | missing
deriving DecidableEq

/-- **The repository of a directory**, as the file system and git show it.  Paths are real
paths. -/
structure Checkouts where
  cwd : String
  place : String → Place
  /-- `_git_identity`, `none` where git fails or takes too long. -/
  identity : String → Option GitIdentity
  /-- The directory that a path is in. -/
  parent : String → String
  /-- The path of a word, with `~` expanded, from the directory. -/
  resolve : String → String
  /-- The directory that git works in, given its global options. -/
  directory : List String → String
  /-- The worktree, or the new path, that git takes an operand for. -/
  names : List String → String → String
  directory_nil : directory [] = cwd
  /-- The git directory of the main worktree is the common one. -/
  gitDir_main : ∀ path id, place path = .main → identity path = some id → id.gitDir = id.commonDir
  /-- A linked worktree has its own. -/
  gitDir_linked : ∀ path id, place path = .linked → identity path = some id →
    id.gitDir ≠ id.commonDir

/-! ### The guard -/

/-- `_GIT_MUTATING_COMMANDS`. -/
def gitMutatingCommands : List String :=
  ["add", "apply", "checkout", "clean", "commit", "cherry-pick", "merge", "mv", "read-tree",
    "rebase", "reset", "restore", "revert", "rm", "sparse-checkout", "switch", "update-index"]

/-- `_GIT_WORKTREE_TARGET_COMMANDS`. -/
def gitWorktreeTargetCommands : List String := ["add", "lock", "move", "remove", "unlock"]

/-- How many operands of a worktree command are targets. -/
def required (subcommand : String) : ℕ := if subcommand = "move" then 2 else 1

/-- The options whose value the guard skips. -/
def skippedOptions : List String := ["-b", "-B", "--branch", "--orphan", "--reason"]

/-- The loop of `_git_worktree_target_args`. -/
def targetValues : List String → List String
  | [] => []
  | value :: rest =>
    if value = "--" then rest
    else if value ∈ skippedOptions then
      match rest with
      | [] => []
      | _ :: rest => targetValues rest
    else if "--branch=".toList.isPrefixOf value.toList ∨ "--orphan=".toList.isPrefixOf value.toList ∨
        "--reason=".toList.isPrefixOf value.toList then targetValues rest
    else if isOption value = true then targetValues rest
    else value :: targetValues rest

/-- `_git_worktree_target_args`: the targets, `none` where there are too few. -/
def gitWorktreeTargetArgs : List String → Option (List String)
  | "worktree" :: subcommand :: rest =>
    if subcommand ∈ gitWorktreeTargetCommands then
      if (targetValues rest).length < required subcommand then none
      else some ((targetValues rest).take (required subcommand))
    else some []
  | _ => some []

/-- Why a command is refused. -/
inductive Refusal
  | ambiguous
  | unverified
  | mainWorktree (target : String)

/-- The message. -/
def Refusal.text (args : List String) (refusal : Refusal) : String :=
  "refusing git " ++ " ".intercalate args ++
    match refusal with
    | .ambiguous => ": cannot determine target worktree"
    | .unverified => ": cannot verify repository identity"
    | .mainWorktree target => ": target " ++ target ++ " is the repository main worktree"

section Guard

variable (c : Checkouts)

/-- One target of a worktree command.  A target whose identity is not known is passed over. -/
def guardTarget (sourceMain rawTarget : String) : Option Refusal :=
  let target := c.resolve rawTarget
  if target = sourceMain then some (.mainWorktree target)
  else
    match (if c.place target = .missing then none else c.identity target) with
    | none => none
    | some id =>
      if id.gitDir = id.commonDir ∨ id.topLevel = sourceMain then some (.mainWorktree target)
      else none

/-- The targets of a worktree command. -/
def guardTargets (targets : List String) : Option Refusal :=
  match c.identity c.cwd with
  | none => some .unverified
  | some source => targets.findSome? (guardTarget c (c.parent source.commonDir))

/-- The directory as the target. -/
def guardCwd : Option Refusal :=
  match c.identity c.cwd with
  | none => some .unverified
  | some source =>
    if source.gitDir = source.commonDir then some (.mainWorktree source.topLevel) else none

/-- `guard_worktree_mutation`. -/
def guardWorktreeMutation : List String → Option Refusal
  | [] => none
  | command :: rest =>
    if command = "worktree" then
      match gitWorktreeTargetArgs (command :: rest) with
      | none => some .ambiguous
      | some [] => none
      | some (target :: more) => guardTargets c (target :: more)
    else if command = "stash" then
      if rest.head? = some "list" ∨ rest.head? = some "show" then none else guardCwd c
    else if command ∈ gitMutatingCommands then guardCwd c
    else none

/-- What became of a command. -/
inductive GitProc
  | refused (message : String)
  | timedOut
  | run

/-- `_git_proc`; `late` where the guard took all the time there was. -/
def gitProc (late : Bool) (args : List String) : GitProc :=
  match guardWorktreeMutation c args with
  | some refusal => .refused (refusal.text args)
  | none => if late = true then .timedOut else .run

end Guard

/-! ### What git would do -/

/-- **Git's grammar**: its global options, and the options of each worktree command. -/
structure GitGrammar where
  globals : String → Kind
  worktree : String → String → Kind

/-- What a guarded command works on. -/
inductive Target
  | directory
  | operands (words : List String)
deriving DecidableEq

/-- The operands of a worktree command that are targets; git fails where there are too few. -/
def GitGrammar.worktreeTargets (git : GitGrammar) (subcommand : String) (rest : List String) :
    Option Target :=
  (operands (git.worktree subcommand) rest).bind fun words =>
    if words.length < required subcommand then none
    else some (.operands (words.take (required subcommand)))

/-- What a command works on, if it is guarded. -/
def GitGrammar.commandTarget (git : GitGrammar) : List String → Option Target
  | [] => none
  | command :: rest =>
    if command = "worktree" then
      match rest with
      | [] => none
      | subcommand :: more =>
        if subcommand ∈ gitWorktreeTargetCommands then git.worktreeTargets subcommand more else none
    else if command = "stash" then
      if rest.head? = some "list" ∨ rest.head? = some "show" then none else some .directory
    else if command ∈ gitMutatingCommands then some .directory
    else none

/-- The global options of a command line and the target of its command, if it is guarded. -/
def GitGrammar.target (git : GitGrammar) (args : List String) : Option (List String × Target) :=
  (splitLeading git.globals args).bind fun split =>
    (git.commandTarget split.2).map fun target => (split.1, target)

section Claim

variable (c : Checkouts) (before : List String)

/-- The main worktree is a target. -/
def OnMain : Target → Prop
  | .directory => c.place (c.directory before) = .main
  | .operands words => ∃ word ∈ words, c.place (c.names before word) = .main

/-- The targets are linked worktrees, or paths where one may be made. -/
def OnLinked : Target → Prop
  | .directory => c.place (c.directory before) = .linked
  | .operands words =>
    ∀ word ∈ words, c.place (c.names before word) = .linked ∨ c.place (c.names before word) = .missing

end Claim

/-- **The guard decides as it should**: a guarded command on the main worktree is refused and
not run, one on linked worktrees is not refused. -/
structure Guards (git : GitGrammar) (c : Checkouts) (args : List String) : Prop where
  main : ∀ before target, git.target args = some (before, target) → OnMain c before target →
    ∃ refusal, guardWorktreeMutation c args = some refusal ∧
      ∀ late, gitProc c late args = .refused (refusal.text args)
  linked : ∀ before target, git.target args = some (before, target) → OnLinked c before target →
    guardWorktreeMutation c args = none

/-! ### The condition -/

/-- Git shows a path to be a main worktree: the common directory lies there, or its git
directory is the common one. -/
def TellsMain (c : Checkouts) (sourceMain path : String) : Prop :=
  path = sourceMain ∨ c.place path ≠ .missing ∧ ∃ id, c.identity path = some id ∧
    (id.gitDir = id.commonDir ∨ id.topLevel = sourceMain)

/-- The operands that the guard reads are too few, or git shows one of them to be a main
worktree, or it shows nothing. -/
def Suspect (c : Checkouts) (args : List String) : Prop :=
  ∀ source, c.identity c.cwd = some source → ∀ targets, gitWorktreeTargetArgs args = some targets →
    ∃ target ∈ targets, TellsMain c (c.parent source.commonDir) (c.resolve target)

/-- **The condition.** -/
structure Guardable (git : GitGrammar) (c : Checkouts) (args : List String) : Prop where
  /-- No global option stands before a guarded command on the main worktree. -/
  globals : ∀ before target, git.target args = some (before, target) → before ≠ [] →
    ¬OnMain c before target
  /-- Git answers for the linked worktree that a command is run in. -/
  answered : git.target args = some ([], .directory) → c.place c.cwd = .linked →
    (c.identity c.cwd).isSome = true
  /-- Where git takes an operand for the main worktree, the guard reads one that git shows to
  be main. -/
  seen : ∀ words, git.target args = some ([], .operands words) → OnMain c [] (.operands words) →
    Suspect c args
  /-- Where git takes all operands for linked worktrees, the guard reads none of these. -/
  unseen : ∀ words, git.target args = some ([], .operands words) →
    OnLinked c [] (.operands words) → ¬Suspect c args

/-! ### What the guard refuses -/

section Refused

variable {c : Checkouts} {git : GitGrammar}

theorem guardTarget_eq_none_iff {sourceMain rawTarget : String} :
    guardTarget c sourceMain rawTarget = none ↔ ¬TellsMain c sourceMain (c.resolve rawTarget) := by
  unfold guardTarget TellsMain
  by_cases hmain : c.resolve rawTarget = sourceMain
  · simp [hmain]
  · by_cases hmissing : c.place (c.resolve rawTarget) = .missing
    · simp [hmain, hmissing]
    · cases hid : c.identity (c.resolve rawTarget) with
      | none => simp [hmain, hmissing, hid]
      | some id => simp [hmain, hmissing, hid]

theorem guard_of_isOption {word : String} (h : isOption word = true) (rest : List String) :
    guardWorktreeMutation c (word :: rest) = none := by
  have hne (other : String) (hother : isOption other = false) : word ≠ other := by
    rintro rfl
    exact Bool.false_ne_true (hother.symm.trans h)
  have hmem : word ∉ gitMutatingCommands := by
    intro hmem
    have hall : ∀ other ∈ gitMutatingCommands, isOption other = false := by decide
    exact hne word (hall word hmem) rfl
  rw [guardWorktreeMutation, if_neg (hne "worktree" (by decide)), if_neg (hne "stash" (by decide)), if_neg hmem]

/-- A command that works on the directory is refused where git shows it to be main, or shows
nothing. -/
theorem guard_of_directory {args : List String} (h : git.commandTarget args = some .directory) :
    guardWorktreeMutation c args = guardCwd c := by
  cases args with
  | nil => cases h
  | cons command rest =>
    unfold GitGrammar.commandTarget at h
    dsimp only at h
    rw [guardWorktreeMutation]
    by_cases hworktree : command = "worktree"
    · rw [if_pos hworktree] at h
      cases rest with
      | nil => cases h
      | cons subcommand more =>
        simp only at h
        split at h
        · obtain ⟨words, -, hwords⟩ := Option.bind_eq_some_iff.mp h
          split at hwords <;> cases hwords
        · cases h
    · rw [if_neg hworktree] at h ⊢
      by_cases hstash : command = "stash"
      · rw [if_pos hstash] at h ⊢
        split at h
        · cases h
        · rename_i hread
          rw [if_neg hread]
      · rw [if_neg hstash] at h ⊢
        split at h
        · rename_i hmem
          rw [if_pos hmem]
        · cases h

theorem args_of_operands {args words : List String}
    (h : git.commandTarget args = some (.operands words)) :
    ∃ subcommand rest, args = "worktree" :: subcommand :: rest ∧
      subcommand ∈ gitWorktreeTargetCommands ∧
      git.worktreeTargets subcommand rest = some (.operands words) := by
  cases args with
  | nil => cases h
  | cons command rest =>
    unfold GitGrammar.commandTarget at h
    dsimp only at h
    by_cases hworktree : command = "worktree"
    · rw [if_pos hworktree] at h
      cases rest with
      | nil => cases h
      | cons subcommand more =>
        simp only at h
        split at h
        · rename_i hmem
          exact ⟨subcommand, more, by rw [hworktree], hmem, h⟩
        · cases h
    · rw [if_neg hworktree] at h
      split at h <;> split at h <;> cases h

theorem required_pos (subcommand : String) : 0 < required subcommand := by
  unfold required
  split <;> decide

theorem gitWorktreeTargetArgs_of_mem {subcommand : String}
    (h : subcommand ∈ gitWorktreeTargetCommands) (rest : List String) :
    gitWorktreeTargetArgs ("worktree" :: subcommand :: rest) =
      if (targetValues rest).length < required subcommand then none
      else some ((targetValues rest).take (required subcommand)) := if_pos h

/-- **A worktree command** is refused exactly where its operands are suspect. -/
theorem guard_of_operands {args words : List String}
    (h : git.commandTarget args = some (.operands words)) :
    guardWorktreeMutation c args = none ↔ ¬Suspect c args := by
  obtain ⟨subcommand, rest, rfl, hmem, -⟩ := args_of_operands h
  have hpos := required_pos subcommand
  unfold Suspect
  rw [guardWorktreeMutation, if_pos rfl, gitWorktreeTargetArgs_of_mem hmem]
  split
  · rename_i hfew
    simp [hfew]
  · rename_i hempty
    split at hempty
    · cases hempty
    · have hnil := Option.some.inj hempty
      simp only [List.take_eq_nil_iff] at hnil
      rename_i henough
      rcases hnil with hzero | hnil
      · omega
      · rw [hnil, List.length_nil] at henough
        exact absurd hpos henough
  · rename_i target more hsome
    rw [hsome]
    unfold guardTargets
    cases hid : c.identity c.cwd with
    | none => simp
    | some source =>
      simp only [Option.some.injEq, forall_eq']
      rw [List.findSome?_eq_none_iff]
      simp only [guardTarget_eq_none_iff]
      push Not
      rfl

theorem commandTarget_of_nil {args : List String} {target : Target}
    (h : git.target args = some ([], target)) : git.commandTarget args = some target := by
  obtain ⟨⟨before, after⟩, hsplit, hmap⟩ := Option.bind_eq_some_iff.mp h
  obtain ⟨found, hfound, heq⟩ := Option.map_eq_some_iff.mp hmap
  obtain ⟨rfl, rfl⟩ := Prod.mk.inj heq
  rwa [splitLeading_eq_nil hsplit] at hfound

theorem guard_of_before {args before : List String} {target : Target}
    (h : git.target args = some (before, target)) (hbefore : before ≠ []) :
    guardWorktreeMutation c args = none := by
  obtain ⟨⟨leading, after⟩, hsplit, hmap⟩ := Option.bind_eq_some_iff.mp h
  obtain ⟨found, -, heq⟩ := Option.map_eq_some_iff.mp hmap
  obtain ⟨rfl, rfl⟩ := Prod.mk.inj heq
  cases args with
  | nil => exact absurd (Prod.mk.inj (Option.some.inj hsplit)).1.symm hbefore
  | cons word rest => exact guard_of_isOption (isOption_of_splitLeading hsplit hbefore) rest

theorem guardCwd_of_main (h : c.place c.cwd = .main) : guardCwd c ≠ none := by
  unfold guardCwd
  cases hid : c.identity c.cwd with
  | none => exact Option.some_ne_none _
  | some id =>
    simp only [c.gitDir_main _ id h hid, if_true]
    exact Option.some_ne_none _

theorem guardCwd_of_linked (h : c.place c.cwd = .linked) :
    guardCwd c = none ↔ (c.identity c.cwd).isSome = true := by
  unfold guardCwd
  cases hid : c.identity c.cwd with
  | none => simp
  | some id => simp [c.gitDir_linked _ id h hid]

end Refused

/-- Git's options, as far as they are used here. -/
def gitOptions : GitGrammar where
  globals word :=
    if word ∈ ["-c", "-C", "--git-dir", "--work-tree", "--namespace", "--config-env"] then .value
    else if word ∈ ["--version", "--help"] then .stop
    else .flag
  worktree subcommand word :=
    if word = "--reason" ∨ subcommand = "add" ∧ (word = "-b" ∨ word = "-B") then .value else .flag

/-- The main checkout, with `.git` in it. -/
def mainCheckout : Checkouts where
  cwd := "/repo"
  place path := if path = "/repo" then .main else .missing
  identity path := if path = "/repo" then some ⟨"/repo/.git", "/repo/.git", "/repo"⟩ else none
  parent _ := "/repo"
  resolve word := word
  directory _ := "/repo"
  names _ word := word
  directory_nil := rfl
  gitDir_main path id hplace hid := by
    split at hid
    · cases hid
      rfl
    · cases hid
  gitDir_linked path id hplace := by
    split at hplace <;> cases hplace

/-- The command line of the forced checkout. -/
def forcedCheckout (branch baseCommit : String) : List String :=
  ["-c", "submodule.recurse=false", "checkout", "--no-overwrite-ignore", "-f", "-B", branch,
    baseCommit]

end GoalFlight.Worktrees
