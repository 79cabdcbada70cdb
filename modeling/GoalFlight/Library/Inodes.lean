import Mathlib.Logic.Function.Basic
import Mathlib.Data.Nat.Notation
import Mathlib.Tactic.Common

/-!
# Files, names and advisory locks

A name stands for an *inode*, and what is written and what is locked is the inode: who opened a
file keeps its inode when another file takes the name.  Two names never stand for one inode here
(there are no hard links), and an inode is never drawn twice.

* `openFile`: opens a name, and creates the file if there is none.
* `writeFile`: the content of a name, created if there is none.
* `rename`: a file takes another name, and the file that had it loses it.
* `lock`, `unlock`: the advisory lock of an inode.
-/

universe u v

/-- The files under a set of names `κ`, with contents `ν`, and who holds the lock of each. -/
structure Inodes (κ : Type u) (ν : Type v) where
  named : κ → Option ℕ
  content : ℕ → ν
  holder : ℕ → Option ℕ
  /-- The inodes from here on are new. -/
  next : ℕ
  named_lt : ∀ {k i}, named k = some i → i < next
  named_inj : ∀ {k k' i}, named k = some i → named k' = some i → k = k'

namespace Inodes

variable {κ : Type u} {ν : Type v}

/-- No file. -/
def empty (blank : ν) : Inodes κ ν where
  named _ := none
  content _ := blank
  holder _ := none
  next := 0
  named_lt h := by cases h
  named_inj h := by cases h

variable [DecidableEq κ] (fs : Inodes κ ν)

/-- A new file under a name that has none. -/
def create (k : κ) (content : ν) : Inodes κ ν where
  named := Function.update fs.named k (some fs.next)
  content := Function.update fs.content fs.next content
  holder := fs.holder
  next := fs.next + 1
  named_lt := by
    intro k' i h
    by_cases hk : k' = k
    · subst hk
      rw [Function.update_self] at h
      cases h
      exact Nat.lt_succ_self _
    · rw [Function.update_of_ne hk] at h
      exact Nat.lt_succ_of_lt (fs.named_lt h)
  named_inj := by
    intro k₁ k₂ i h₁ h₂
    have hnew : ∀ {k'}, k' ≠ k → Function.update fs.named k (some fs.next) k' = some i →
        i < fs.next := by
      intro k' hk h
      rw [Function.update_of_ne hk] at h
      exact fs.named_lt h
    by_cases hk₁ : k₁ = k <;> by_cases hk₂ : k₂ = k
    · rw [hk₁, hk₂]
    · have := hnew hk₂ h₂
      subst hk₁
      rw [Function.update_self] at h₁
      cases h₁
      exact absurd this (Nat.lt_irrefl _)
    · have := hnew hk₁ h₁
      subst hk₂
      rw [Function.update_self] at h₂
      cases h₂
      exact absurd this (Nat.lt_irrefl _)
    · rw [Function.update_of_ne hk₁] at h₁
      rw [Function.update_of_ne hk₂] at h₂
      exact fs.named_inj h₁ h₂

/-- `open(name, "a+")`: the inode, and the files. -/
def openFile (k : κ) (blank : ν) : ℕ × Inodes κ ν :=
  match fs.named k with
  | some i => (i, fs)
  | none => (fs.next, fs.create k blank)

/-- `open(name, "w")`, and a content. -/
def writeFile (k : κ) (content : ν) : Inodes κ ν :=
  match fs.named k with
  | some i => { fs with content := Function.update fs.content i content }
  | none => fs.create k content

/-- What a name has, if it is there. -/
def read? (k : κ) : Option ν := (fs.named k).map fs.content

/-- The names after a renaming. -/
def renamed (named : κ → Option ℕ) (source target : κ) (i : ℕ) : κ → Option ℕ :=
  Function.update (Function.update named source none) target (some i)

theorem renamed_eq {named : κ → Option ℕ} {source target k : κ} {i j : ℕ}
    (h : renamed named source target i k = some j) :
    (k = target ∧ j = i) ∨ (k ≠ target ∧ k ≠ source ∧ named k = some j) := by
  unfold renamed at h
  by_cases htarget : k = target
  · subst htarget
    rw [Function.update_self] at h
    cases h
    exact .inl ⟨rfl, rfl⟩
  · rw [Function.update_of_ne htarget] at h
    by_cases hsource : k = source
    · subst hsource
      rw [Function.update_self] at h
      cases h
    · rw [Function.update_of_ne hsource] at h
      exact .inr ⟨htarget, hsource, h⟩

/-- `source.replace(target)`; there is no source where another has renamed it. -/
def rename (source target : κ) : Option (Inodes κ ν) :=
  match hsource : fs.named source with
  | none => none
  | some i =>
    some { fs with
      named := renamed fs.named source target i
      named_lt := by
        intro k j h
        rcases renamed_eq h with ⟨-, rfl⟩ | ⟨-, -, h⟩
        · exact fs.named_lt hsource
        · exact fs.named_lt h
      named_inj := by
        intro k₁ k₂ j h₁ h₂
        rcases renamed_eq h₁ with ⟨rfl, rfl⟩ | ⟨-, hne₁, hold₁⟩ <;>
          rcases renamed_eq h₂ with ⟨rfl, heq⟩ | ⟨-, hne₂, hold₂⟩
        · rfl
        · exact absurd (fs.named_inj hold₂ hsource) hne₂
        · subst heq
          exact absurd (fs.named_inj hold₁ hsource) hne₁
        · exact fs.named_inj hold₁ hold₂ }

/-- `flock`, of a lock that is free. -/
def lock (i p : ℕ) : Inodes κ ν := { fs with holder := Function.update fs.holder i (some p) }

/-- The end of a process's lock of an inode. -/
def unlock (i p : ℕ) : Inodes κ ν :=
  if fs.holder i = some p then { fs with holder := Function.update fs.holder i none } else fs

/-! ### What the operations change -/

section Effects

variable {fs} {k k' : κ} {i p : ℕ}

theorem openFile_named (blank : ν) : (fs.openFile k blank).2.named k = some (fs.openFile k blank).1 := by
  unfold openFile
  cases h : fs.named k with
  | none => exact Function.update_self ..
  | some i => exact h

theorem openFile_named_of_some (blank : ν) (h : fs.named k' = some i) :
    (fs.openFile k blank).2.named k' = some i := by
  unfold openFile
  cases hk : fs.named k with
  | some j => exact h
  | none =>
    have hne : k' ≠ k := by
      rintro rfl
      rw [h] at hk
      cases hk
    exact (Function.update_of_ne hne ..).trans h

theorem openFile_holder (blank : ν) : (fs.openFile k blank).2.holder = fs.holder := by
  unfold openFile
  cases fs.named k <;> rfl

theorem openFile_next (blank : ν) : fs.next ≤ (fs.openFile k blank).2.next := by
  unfold openFile
  cases fs.named k with
  | none => exact Nat.le_succ _
  | some i => exact Nat.le_refl _

theorem openFile_lt (blank : ν) : (fs.openFile k blank).1 < (fs.openFile k blank).2.next :=
  (fs.openFile k blank).2.named_lt (openFile_named blank)

theorem create_read?_of_ne (content : ν) (hne : k' ≠ k) :
    (fs.create k content).read? k' = fs.read? k' := by
  have hname : (fs.create k content).named k' = fs.named k' := Function.update_of_ne hne ..
  unfold read?
  rw [hname]
  cases h : fs.named k' with
  | none => rfl
  | some i =>
    have hold : i ≠ fs.next := Nat.ne_of_lt (fs.named_lt h)
    exact congrArg some (Function.update_of_ne hold ..)

theorem create_read?_self (content : ν) : (fs.create k content).read? k = some content := by
  have hname : (fs.create k content).named k = some fs.next := Function.update_self ..
  unfold read?
  rw [hname]
  exact congrArg some (Function.update_self ..)

theorem openFile_read? (blank : ν) :
    (fs.openFile k blank).2.read? k' = fs.read? k' ∨
      k' = k ∧ fs.named k' = none ∧ (fs.openFile k blank).2.read? k' = some blank := by
  unfold openFile
  cases h : fs.named k with
  | some i => exact .inl rfl
  | none =>
    by_cases hk : k' = k
    · subst hk
      exact .inr ⟨rfl, h, create_read?_self blank⟩
    · exact .inl (create_read?_of_ne blank hk)

theorem writeFile_read?_self (content : ν) : (fs.writeFile k content).read? k = some content := by
  unfold writeFile
  cases h : fs.named k with
  | none => exact create_read?_self content
  | some i =>
    unfold read?
    rw [show ({ fs with content := Function.update fs.content i content } :
      Inodes κ ν).named k = some i from h]
    exact congrArg some (Function.update_self ..)

/-- **Writing a file** leaves what the other names have. -/
theorem writeFile_read?_of_ne (content : ν) (hne : k' ≠ k) :
    (fs.writeFile k content).read? k' = fs.read? k' := by
  unfold writeFile
  cases h : fs.named k with
  | none => exact create_read?_of_ne content hne
  | some i =>
    unfold read?
    cases h' : fs.named k' with
    | none => rfl
    | some j =>
      have hij : j ≠ i := by
        rintro rfl
        exact hne (fs.named_inj h' h)
      exact congrArg some (Function.update_of_ne hij ..)

theorem writeFile_named_of_ne (content : ν) (hne : k' ≠ k) :
    (fs.writeFile k content).named k' = fs.named k' := by
  unfold writeFile
  cases fs.named k with
  | none => exact Function.update_of_ne hne ..
  | some i => rfl

theorem writeFile_holder (content : ν) : (fs.writeFile k content).holder = fs.holder := by
  unfold writeFile
  cases fs.named k <;> rfl

theorem writeFile_next (content : ν) : fs.next ≤ (fs.writeFile k content).next := by
  unfold writeFile
  cases fs.named k with
  | none => exact Nat.le_succ _
  | some i => exact Nat.le_refl _

/-- **A renaming** gives the target what the source had, and leaves the other names. -/
theorem rename_spec {source target : κ} {fs' : Inodes κ ν}
    (h : fs.rename source target = some fs') :
    fs'.read? target = fs.read? source ∧
      (∀ k, k ≠ source → k ≠ target → fs'.named k = fs.named k ∧ fs'.read? k = fs.read? k) ∧
      fs'.holder = fs.holder ∧ fs'.next = fs.next := by
  unfold rename at h
  split at h
  · cases h
  · rename_i i hsource
    cases h
    refine ⟨?_, fun k hk hk' => ?_, rfl, rfl⟩
    · unfold read? renamed
      simp only [Function.update_self, hsource, Option.map_some]
    · have hname : renamed fs.named source target i k = fs.named k := by
        unfold renamed
        rw [Function.update_of_ne hk', Function.update_of_ne hk]
      refine ⟨hname, ?_⟩
      unfold read?
      simp only [hname]

omit [DecidableEq κ] in
theorem lock_holder_of_ne {q j : ℕ} (hfree : fs.holder i = none) (hq : fs.holder j = some q) :
    (fs.lock i p).holder j = some q := by
  have hne : j ≠ i := by
    rintro rfl
    rw [hfree] at hq
    cases hq
  exact (Function.update_of_ne hne ..).trans hq

omit [DecidableEq κ] in
/-- **The end of a lock** is of no other's. -/
theorem unlock_holder_of_ne {q j : ℕ} (hne : q ≠ p) (hq : fs.holder j = some q) :
    (fs.unlock i p).holder j = some q := by
  unfold unlock
  split
  · rename_i hp
    have hji : j ≠ i := by
      rintro rfl
      rw [hp] at hq
      cases hq
      exact hne rfl
    exact (Function.update_of_ne hji ..).trans hq
  · exact hq

omit [DecidableEq κ] in
theorem unlock_spec : (fs.unlock i p).named = fs.named ∧ (fs.unlock i p).content = fs.content ∧
    (fs.unlock i p).next = fs.next := by
  unfold unlock
  split <;> exact ⟨rfl, rfl, rfl⟩

omit [DecidableEq κ] in
theorem unlock_read? : (fs.unlock i p).read? k = fs.read? k := by
  unfold unlock
  split <;> rfl

end Effects

end Inodes
