import Mathlib.Data.List.Pairwise
import Mathlib.Data.List.Basic
import Mathlib.Tactic.Common

/-!
# Tables under uniqueness constraints

A relational table is a list of rows in insertion order together with the proof that every earlier
row is *compatible* with every later one: a primary key is `key a ≠ key b`, a partial unique index
is `¬ (p a ∧ p b ∧ key a = key b)`, and an ascending row id is `id a < id b`.

* `insert?` and `update?` are statements the constraints may refuse: `none` exactly where the
  database aborts the statement.
* `update` is a statement that no constraint can refuse, which is an argument.

An `UPDATE` is checked here on its final row values.  A database checks it row by row; the two
agree where a rewritten row never takes the key of a row that is still to be rewritten.
-/

namespace Relational

universe u v

/-- **A table**: rows in insertion order, pairwise compatible. -/
@[ext]
structure Table (α : Type u) (compat : α → α → Prop) where
  rows : List α
  pairwise : rows.Pairwise compat

namespace Table

variable {α : Type u} {compat : α → α → Prop}

instance : Membership α (Table α compat) := ⟨fun t a => a ∈ t.rows⟩

variable {t : Table α compat} {a : α}

theorem mem_def : a ∈ t ↔ a ∈ t.rows := Iff.rfl

instance (t : Table α compat) (p : α → Prop) [DecidablePred p] :
    Decidable (∃ a ∈ t, p a) :=
  inferInstanceAs (Decidable (∃ a ∈ t.rows, p a))

instance (t : Table α compat) (p : α → Prop) [DecidablePred p] :
    Decidable (∀ a ∈ t, p a) :=
  inferInstanceAs (Decidable (∀ a ∈ t.rows, p a))

instance [DecidableEq α] (t : Table α compat) (a : α) : Decidable (a ∈ t) :=
  inferInstanceAs (Decidable (a ∈ t.rows))

/-- The table with no rows. -/
def empty : Table α compat := ⟨[], List.Pairwise.nil⟩

@[simp] theorem rows_empty : (empty : Table α compat).rows = [] := rfl

@[simp] theorem notMem_empty (a : α) : a ∉ (empty : Table α compat) := by
  simp [mem_def]

theorem eq_of_not_compat {a b : α} (ha : a ∈ t) (hb : b ∈ t)
    (hab : ¬ compat a b) (hba : ¬ compat b a) : a = b := by
  by_contra hne
  have hpair := List.pairwise_iff_getElem.mp t.pairwise
  obtain ⟨i, hi, rfl⟩ := List.getElem_of_mem ha
  obtain ⟨k, hk, rfl⟩ := List.getElem_of_mem hb
  rcases Nat.lt_trichotomy i k with hlt | heq | hgt
  · exact hab (hpair i k hi hk hlt)
  · subst heq
    exact hne rfl
  · exact hba (hpair k i hk hi hgt)

/-! ## Inserting -/

/-- `INSERT`: the row goes to the end, unless a constraint refuses it. -/
def insert? [DecidableRel compat] (t : Table α compat) (a : α) :
    Option (Table α compat) :=
  if h : ∀ r ∈ t.rows, compat r a then
    some ⟨t.rows ++ [a], List.pairwise_append.mpr
      ⟨t.pairwise, List.pairwise_singleton _ _, by simpa using h⟩⟩
  else none

variable {t' : Table α compat}

/-- An accepted row was compatible with every row of the table and is now its
last one. -/
theorem insert?_eq_some [DecidableRel compat]
    (h : t.insert? a = some t') :
    (∀ r ∈ t, compat r a) ∧ t'.rows = t.rows ++ [a] := by
  unfold insert? at h
  split at h
  · rename_i hall
    cases h
    exact ⟨hall, rfl⟩
  · cases h

/-- The constraints refuse a row exactly when some row of the table is not
compatible with it. -/
theorem insert?_eq_none_iff [DecidableRel compat] :
    t.insert? a = none ↔ ∃ r ∈ t, ¬ compat r a := by
  unfold insert?
  split
  · rename_i hall
    simp only [reduceCtorEq, false_iff, not_exists, not_and, not_not]
    exact hall
  · rename_i hall
    simpa [mem_def] using hall

theorem mem_of_insert? [DecidableRel compat] {a b : α}
    (h : t.insert? a = some t') : b ∈ t' ↔ b ∈ t ∨ b = a := by
  simp [mem_def, (insert?_eq_some h).2]

/-! ## Updating -/

/-- `UPDATE`: every row `r` becomes `f r`, unless a constraint refuses the
result. -/
def update? [DecidableRel compat] (t : Table α compat) (f : α → α) :
    Option (Table α compat) :=
  if h : (t.rows.map f).Pairwise compat then some ⟨t.rows.map f, h⟩ else none

variable {f : α → α}

theorem update?_eq_some [DecidableRel compat]
    (h : t.update? f = some t') : t'.rows = t.rows.map f := by
  unfold update? at h
  split at h
  · cases h
    rfl
  · cases h

theorem update?_isSome_iff [DecidableRel compat] :
    (∃ t', t.update? f = some t') ↔ (t.rows.map f).Pairwise compat := by
  unfold update?
  split <;> simp_all

/-- `UPDATE` with row values that keep every constraint. -/
def update (t : Table α compat) (f : α → α)
    (hf : ∀ a b, compat a b → compat (f a) (f b)) : Table α compat :=
  ⟨t.rows.map f, List.pairwise_map.mpr (t.pairwise.imp (hf _ _))⟩

@[simp] theorem rows_update (t : Table α compat) (f : α → α)
    (hf : ∀ a b, compat a b → compat (f a) (f b)) :
    (t.update f hf).rows = t.rows.map f := rfl

theorem mem_update
    {hf : ∀ a b, compat a b → compat (f a) (f b)} {b : α} :
    b ∈ t.update f hf ↔ ∃ a ∈ t, f a = b := by
  simp [mem_def]

theorem exists_of_mem {b : α} (hb : b ∈ t')
    (h : t'.rows = t.rows.map f) : ∃ a ∈ t, f a = b := by
  rw [mem_def, h] at hb
  exact List.mem_map.mp hb

theorem apply_mem
    (h : t'.rows = t.rows.map f) (ha : a ∈ t) : f a ∈ t' := by
  rw [mem_def, h]
  exact List.mem_map_of_mem ha

/-- Rewriting the rows of an accepted update in place is accepted exactly when
no two rewritten rows clash; `hkeep` says which pairs can clash at all. -/
theorem pairwise_map_of
    (hkeep : ∀ a ∈ t, ∀ b ∈ t, compat a b → compat (f a) (f b)) :
    (t.rows.map f).Pairwise compat := by
  rw [List.pairwise_map]
  exact t.pairwise.imp_of_mem fun ha hb hab => hkeep _ ha _ hb hab

/-- `DELETE`: the rows without a property are dropped. -/
def filter (t : Table α compat) (p : α → Prop) [DecidablePred p] : Table α compat :=
  ⟨t.rows.filter p, t.pairwise.filter _⟩

theorem mem_filter {p : α → Prop} [DecidablePred p] :
    a ∈ t.filter p ↔ a ∈ t ∧ p a := by
  simp [mem_def, filter]

/-! ## Looking rows up -/

/-- The first row with a property. -/
def find? (t : Table α compat) (p : α → Bool) : Option α := t.rows.find? p

theorem find?_eq_some {p : α → Bool}
    (h : t.find? p = some a) : a ∈ t ∧ p a = true :=
  ⟨List.mem_of_find?_eq_some h, List.find?_some h⟩

theorem find?_eq_none {p : α → Bool} :
    t.find? p = none ↔ ∀ a ∈ t, p a = false := by
  simp [find?, mem_def]

theorem find?_eq_of_unique {p : α → Bool} (ha : a ∈ t)
    (hp : p a = true) (huniq : ∀ b ∈ t, p b = true → b = a) : t.find? p = some a := by
  cases hfind : t.find? p with
  | none => simp [find?_eq_none.mp hfind a ha] at hp
  | some b =>
    obtain ⟨hb, hpb⟩ := find?_eq_some hfind
    rw [huniq b hb hpb]

end Table

/-! ## Tables with a primary key only -/

/-- A table whose one constraint is its primary key. -/
abbrev KeyedTable {α : Type u} {κ : Type v} (key : α → κ) : Type u :=
  Table α fun a b => key a ≠ key b

namespace KeyedTable

variable {α : Type u} {κ : Type v} {key : α → κ} [DecidableEq κ]

/-- The row with the given key. -/
def get? (t : KeyedTable key) (k : κ) : Option α := t.find? fun a => key a = k

variable {t : KeyedTable key}

theorem get?_eq_some {k : κ} :
    get? t k = some a ↔ a ∈ t ∧ key a = k := by
  constructor
  · intro h
    simpa using Table.find?_eq_some h
  · rintro ⟨ha, rfl⟩
    refine Table.find?_eq_of_unique ha (by simp) fun b hb hkey => ?_
    have hkey' : key b = key a := by simpa using hkey
    exact Table.eq_of_not_compat hb ha (by simp [hkey']) (by simp [hkey'])

theorem get?_eq_none {k : κ} :
    get? t k = none ↔ ∀ a ∈ t, key a ≠ k := by
  simp [get?, Table.find?_eq_none]

/-- `INSERT … ON CONFLICT DO UPDATE`: the row with `a`'s key becomes `f` of itself,
and `a` is inserted when there is none.  `hf` says that `f` leaves keys alone. -/
def upsert (t : KeyedTable key) (a : α) (f : α → α) (hf : ∀ b, key (f b) = key b) :
    KeyedTable key :=
  if h : ∀ r ∈ t.rows, key r ≠ key a then
    ⟨t.rows ++ [a], List.pairwise_append.mpr
      ⟨t.pairwise, List.pairwise_singleton _ _, by simpa using h⟩⟩
  else
    t.update (fun r => if key r = key a then f r else r) (by
      intro b c hbc
      have hb : key (if key b = key a then f b else b) = key b := by split <;> simp [hf]
      have hc : key (if key c = key a then f c else c) = key c := by split <;> simp [hf]
      rwa [hb, hc])

theorem mem_upsert
    {hf : ∀ b, key (f b) = key b} {b : α} (hb : b ∈ upsert t a f hf) :
    (b ∈ t ∧ key b ≠ key a) ∨ b = a ∨ ∃ r ∈ t, key r = key a ∧ f r = b := by
  unfold upsert at hb
  split at hb
  · rename_i hall
    rcases List.mem_append.mp (Table.mem_def.mp hb) with hold | hnew
    · exact .inl ⟨hold, hall b hold⟩
    · exact .inr (.inl (by simpa using hnew))
  · obtain ⟨r, hr, hrb⟩ := Table.mem_update.mp hb
    split at hrb
    · rename_i hkey
      exact .inr (.inr ⟨r, hr, hkey, hrb⟩)
    · rename_i hkey
      subst hrb
      exact .inl ⟨hr, hkey⟩

/-- The rows rewritten by a function that leaves keys alone. -/
def modify (t : KeyedTable key) (f : α → α) (hf : ∀ b, key (f b) = key b) : KeyedTable key :=
  t.update f fun a b hab => by rwa [hf a, hf b]

omit [DecidableEq κ] in
theorem mem_modify {hf : ∀ b, key (f b) = key b} {b : α} :
    b ∈ modify t f hf ↔ ∃ a ∈ t, f a = b :=
  Table.mem_update

omit [DecidableEq κ] in
theorem mem_modify_of_eq (hf : ∀ b, key (f b) = key b)
    (ha : a ∈ t) (h : f a = a) : a ∈ modify t f hf :=
  mem_modify.mpr ⟨a, ha, h⟩

/-- `table[key a] = a` of a mapping: the row takes the place of the one with its key. -/
def set (t : KeyedTable key) (a : α) : KeyedTable key :=
  ⟨t.rows.filter (fun r => key r ≠ key a) ++ [a], List.pairwise_append.mpr
    ⟨t.pairwise.filter _, List.pairwise_singleton _ _, by simp⟩⟩

@[simp] theorem rows_set (t : KeyedTable key) (a : α) :
    (set t a).rows = t.rows.filter (fun r => key r ≠ key a) ++ [a] := rfl

omit [DecidableEq κ] in
theorem eq_of_key {a b : α} (ha : a ∈ t) (hb : b ∈ t)
    (h : key a = key b) : a = b :=
  Table.eq_of_not_compat ha hb (fun hne => hne h) (fun hne => hne h.symm)

theorem get?_set (t : KeyedTable key) (a : α) (k : κ) :
    get? (set t a) k = if k = key a then some a else get? t k := by
  by_cases hk : k = key a
  · rw [if_pos hk, hk, get?_eq_some]
    exact ⟨List.mem_append_right _ (List.mem_singleton_self a), rfl⟩
  · rw [if_neg hk]
    show ((t.rows.filter fun r => key r ≠ key a) ++ [a]).find? _ = t.rows.find? _
    rw [List.find?_append, List.find?_filter]
    have hnew : [a].find? (fun r => decide (key r = k)) = none := by
      rw [List.find?_singleton, if_neg (by simpa using Ne.symm hk)]
    rw [hnew, Option.or_none]
    congr 1
    funext r
    by_cases hr : key r = k
    · simp [hr, hk]
    · simp [hr]

theorem get?_upsert (t : KeyedTable key) (a : α) (f : α → α)
    (hf : ∀ b, key (f b) = key b) (k : κ) :
    get? (upsert t a f hf) k =
      if k = key a then some ((get? t k).elim a f) else get? t k := by
  by_cases hk : k = key a
  · subst hk
    rw [if_pos rfl, get?_eq_some]
    cases hget : get? t (key a) with
    | none =>
      have hall : ∀ r ∈ t.rows, key r ≠ key a := get?_eq_none.mp hget
      refine ⟨?_, rfl⟩
      simp [upsert, dif_pos hall, Table.mem_def]
    | some b =>
      obtain ⟨hb, hkey⟩ := get?_eq_some.mp hget
      have hex : ¬ ∀ r ∈ t.rows, key r ≠ key a := fun hall => hall b hb hkey
      refine ⟨?_, by simp [hf, hkey]⟩
      rw [upsert, dif_neg hex]
      exact Table.mem_update.mpr ⟨b, hb, by simp [hkey]⟩
  · rw [if_neg hk]
    have hiff : ∀ b, (b ∈ upsert t a f hf ∧ key b = k) ↔ (b ∈ t ∧ key b = k) := by
      intro b
      constructor
      · rintro ⟨hb, hkey⟩
        rcases mem_upsert hb with ⟨hold, -⟩ | rfl | ⟨r, -, hr, rfl⟩
        · exact ⟨hold, hkey⟩
        · exact absurd hkey.symm hk
        · exact absurd (hkey.symm.trans ((hf r).trans hr)) hk
      · rintro ⟨hb, hkey⟩
        refine ⟨?_, hkey⟩
        have hne : key b ≠ key a := fun h => hk (hkey.symm.trans h)
        unfold upsert
        split
        · exact List.mem_append_left _ hb
        · exact Table.mem_update.mpr ⟨b, hb, by simp [hne]⟩
    cases hget : get? t k with
    | none =>
      rw [get?_eq_none]
      intro b hb hkey
      exact get?_eq_none.mp hget b ((hiff b).mp ⟨hb, hkey⟩).1 hkey
    | some b => exact get?_eq_some.mpr ((hiff b).mpr (get?_eq_some.mp hget))

theorem mem_upsert_of_ne {a b : α}
    (hf : ∀ b, key (f b) = key b) (hb : b ∈ t) (hne : key b ≠ key a) :
    b ∈ upsert t a f hf := by
  have hget : get? (upsert t a f hf) (key b) = some b := by
    rw [get?_upsert, if_neg hne]
    exact get?_eq_some.mpr ⟨hb, rfl⟩
  exact (get?_eq_some.mp hget).1

theorem elim_mem_upsert (t : KeyedTable key) (a : α) (f : α → α)
    (hf : ∀ b, key (f b) = key b) : (get? t (key a)).elim a f ∈ upsert t a f hf := by
  have hget : get? (upsert t a f hf) (key a) = some ((get? t (key a)).elim a f) := by
    rw [get?_upsert, if_pos rfl]
  exact (get?_eq_some.mp hget).1

end KeyedTable

end Relational
