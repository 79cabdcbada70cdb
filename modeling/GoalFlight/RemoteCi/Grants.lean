import Mathlib.Data.List.Nodup
import GoalFlight.RemoteCi.Root

/-!
# Remote CI: what admission keeps

A token index or a slot is owned on disk by a lease that is not released.  Whoever has its lock is
the holder of that lease.  Each step of a process is a few small changes of the root; each keeps
what is owned, and what the other processes rely on.
-/

namespace GoalFlight.RemoteCi

namespace Root

variable (root : Root)

/-- A lease that is not released has the token index on disk. -/
def Owned (lease index : ℕ) : Prop :=
  ∃ file, root.lease lease = some file ∧ file.status ≠ .released ∧ file.token = some index

/-- A lease that is not released has the slot on disk. -/
def OwnedSlot (lease : ℕ) (slot : Slot) : Prop :=
  ∃ file, root.lease lease = some file ∧ file.status ≠ .released ∧ file.slot = some slot

/-- The holder of the lease is dead. -/
def Dead (lease : ℕ) : Prop := lease ∈ root.issued ∧ root.holderLock lease = false

/-- The lease was released, whether or not its body is there. -/
def Over (lease : ℕ) : Prop :=
  lease ∈ root.issued ∧ ∀ file, root.lease lease = some file → file.status = .released

end Root

/-- **What holds of the root.** -/
structure SoundRoot (pool : ℕ) (root : Root) : Prop where
  owner : ∀ ℓ ℓ' index, root.Owned ℓ index → root.Owned ℓ' index → ℓ = ℓ'
  lock : ∀ ℓ index q, root.Owned ℓ index → root.token index = some q → q = ℓ
  bound : ∀ ℓ index, root.Owned ℓ index → index < pool
  lockBound : ∀ index q, root.token index = some q → index < pool
  marker : ∀ ℓ slot, root.OwnedSlot ℓ slot → root.marker slot = some (.leased ℓ)
  slotLock : ∀ ℓ slot q, root.OwnedSlot ℓ slot → root.slotLock slot = some q → q = ℓ
  runs : ∀ ℓ file, root.lease ℓ = some file → ℓ ∈ root.runs
  issued : ∀ ℓ, ℓ ∈ root.runs → ℓ ∈ root.issued
  nodup : root.runs.Nodup

/-- **What a process relies on** of the steps of the others. -/
structure RootFrame (root root' : Root) (q : ℕ) : Prop where
  queue : root'.queueLock = some q ↔ root.queueLock = some q
  issued : ∀ ℓ, ℓ ∈ root.issued → ℓ ∈ root'.issued
  fresh : q ∉ root.issued → q ∉ root'.issued
  holder : root'.holderLock q = root.holderLock q
  dead : ∀ ℓ, root.Dead ℓ → root'.Dead ℓ
  token : ∀ index, root'.token index = some q ↔ root.token index = some q
  slotLock : ∀ slot, root'.slotLock slot = some q ↔ root.slotLock slot = some q
  command : ∀ ℓ, root.commandLock ℓ = some q → root'.commandLock ℓ = some q
  own : root.holderLock q = true → root'.lease q = root.lease q
  draining : ∀ ℓ file, root.commandLock ℓ = some q → root.Dead ℓ → root.lease ℓ = some file →
    file.status = .draining → root'.lease ℓ = some file
  admitted : ∀ ℓ file, root.queueLock = some q → root.Dead ℓ → root.lease ℓ = some file →
    file.status = .admitted → root'.lease ℓ = some file
  isOver : ∀ ℓ, root.Over ℓ → root'.Over ℓ
  owned : root.queueLock = some q → ∀ ℓ index, root'.Owned ℓ index → root.Owned ℓ index
  ownedSlot : root.queueLock = some q → ∀ ℓ slot, root'.OwnedSlot ℓ slot → root.OwnedSlot ℓ slot
  marker : ∀ slot, root.holderLock q = true → root.slotLock slot = some q →
    root.marker slot = some (.leased q) → root'.marker slot = some (.leased q)

section Relations

variable {a b c : Root} {p q : ℕ}

theorem RootFrame.trans (hab : RootFrame a b q) (hbc : RootFrame b c q) : RootFrame a c q where
  queue := hbc.queue.trans hab.queue
  issued ℓ h := hbc.issued ℓ (hab.issued ℓ h)
  fresh h := hbc.fresh (hab.fresh h)
  holder := hbc.holder.trans hab.holder
  dead ℓ h := hbc.dead ℓ (hab.dead ℓ h)
  token index := (hbc.token index).trans (hab.token index)
  slotLock slot := (hbc.slotLock slot).trans (hab.slotLock slot)
  command ℓ h := hbc.command ℓ (hab.command ℓ h)
  own h := (hbc.own (hab.holder.trans h)).trans (hab.own h)
  draining ℓ file hc hd hf hs :=
    hbc.draining ℓ file (hab.command ℓ hc) (hab.dead ℓ hd) (hab.draining ℓ file hc hd hf hs) hs
  admitted ℓ file hq hd hf hs :=
    hbc.admitted ℓ file (hab.queue.mpr hq) (hab.dead ℓ hd) (hab.admitted ℓ file hq hd hf hs) hs
  isOver ℓ h := hbc.isOver ℓ (hab.isOver ℓ h)
  owned hq ℓ index h := hab.owned hq ℓ index (hbc.owned (hab.queue.mpr hq) ℓ index h)
  ownedSlot hq ℓ slot h := hab.ownedSlot hq ℓ slot (hbc.ownedSlot (hab.queue.mpr hq) ℓ slot h)
  marker slot hh hl hm :=
    hbc.marker slot (hab.holder.trans hh) ((hab.slotLock slot).mpr hl) (hab.marker slot hh hl hm)

/-- What all of this is about. -/
structure SameFiles (a b : Root) : Prop where
  runs : b.runs = a.runs
  issued : b.issued = a.issued
  lease : b.lease = a.lease
  marker : b.marker = a.marker
  holderLock : b.holderLock = a.holderLock
  token : b.token = a.token
  slotLock : b.slotLock = a.slotLock

theorem SameFiles.refl : SameFiles a a := ⟨rfl, rfl, rfl, rfl, rfl, rfl, rfl⟩

theorem SameFiles.owned (h : SameFiles a b) : b.Owned = a.Owned := by
  funext ℓ index
  unfold Root.Owned
  rw [h.lease]

theorem SameFiles.ownedSlot (h : SameFiles a b) : b.OwnedSlot = a.OwnedSlot := by
  funext ℓ slot
  unfold Root.OwnedSlot
  rw [h.lease]

theorem SameFiles.dead (h : SameFiles a b) : b.Dead = a.Dead := by
  funext ℓ
  unfold Root.Dead
  rw [h.issued, h.holderLock]

theorem SameFiles.isOver (h : SameFiles a b) : b.Over = a.Over := by
  funext ℓ
  unfold Root.Over
  rw [h.issued, h.lease]

theorem SoundRoot.same {pool : ℕ} (hs : SoundRoot pool a) (h : SameFiles a b) :
    SoundRoot pool b where
  owner := by
    rw [h.owned]
    exact hs.owner
  lock := by
    rw [h.owned, h.token]
    exact hs.lock
  bound := by
    rw [h.owned]
    exact hs.bound
  lockBound := by
    rw [h.token]
    exact hs.lockBound
  marker := by
    rw [h.ownedSlot, h.marker]
    exact hs.marker
  slotLock := by
    rw [h.ownedSlot, h.slotLock]
    exact hs.slotLock
  runs := by
    rw [h.lease, h.runs]
    exact hs.runs
  issued := by
    rw [h.runs, h.issued]
    exact hs.issued
  nodup := by
    rw [h.runs]
    exact hs.nodup

/-- Only `queue.lock`, a `command.lock` or a ticket changes, and not those of the process. -/
theorem RootFrame.same (h : SameFiles a b)
    (hqueue : b.queueLock = some q ↔ a.queueLock = some q)
    (hcommand : ∀ ℓ, a.commandLock ℓ = some q → b.commandLock ℓ = some q) : RootFrame a b q where
  queue := hqueue
  issued ℓ hℓ := by
    rw [h.issued]
    exact hℓ
  fresh hq := by
    rw [h.issued]
    exact hq
  holder := by rw [h.holderLock]
  dead ℓ hℓ := by
    rw [h.dead]
    exact hℓ
  token index := by rw [h.token]
  slotLock slot := by rw [h.slotLock]
  command := hcommand
  own _ := by rw [h.lease]
  draining ℓ file _ _ hf _ := by
    rw [h.lease]
    exact hf
  admitted ℓ file _ _ hf _ := by
    rw [h.lease]
    exact hf
  isOver ℓ hℓ := by
    rw [h.isOver]
    exact hℓ
  owned _ ℓ index hℓ := by
    rw [h.owned] at hℓ
    exact hℓ
  ownedSlot _ ℓ slot hℓ := by
    rw [h.ownedSlot] at hℓ
    exact hℓ
  marker slot _ _ hm := by
    rw [h.marker]
    exact hm

theorem RootFrame.refl : RootFrame a a q := .same .refl Iff.rfl fun _ => id

theorem RootFrame.lockQueue (hq : q ≠ p) (hfree : a.queueLock = none) :
    RootFrame a (a.lockQueue p) q := by
  refine .same ⟨rfl, rfl, rfl, rfl, rfl, rfl, rfl⟩ ?_ fun _ => id
  rw [hfree]
  constructor
  · intro h
    exact absurd (Option.some.inj h).symm hq
  · intro h
    cases h

theorem RootFrame.unlockQueue (hq : q ≠ p) (hmine : a.queueLock = some p) :
    RootFrame a a.unlockQueue q := by
  refine .same ⟨rfl, rfl, rfl, rfl, rfl, rfl, rfl⟩ ?_ fun _ => id
  rw [hmine]
  constructor
  · intro h
    cases h
  · intro h
    exact absurd (Option.some.inj h).symm hq

theorem RootFrame.setCommandLock {ℓ : ℕ} {next : Option ℕ} (hother : a.commandLock ℓ ≠ some q) :
    RootFrame a (a.setCommandLock ℓ next) q := by
  refine .same ⟨rfl, rfl, rfl, rfl, rfl, rfl, rfl⟩ Iff.rfl fun ℓ' h => ?_
  have hne : ℓ' ≠ ℓ := by
    rintro rfl
    exact hother h
  show Function.update a.commandLock ℓ next ℓ' = some q
  rw [Function.update_of_ne hne]
  exact h

end Relations

/-! ### Lease files -/

section Leases

variable {pool : ℕ} {root : Root} {p q ℓ ℓ' index : ℕ} {slot : Slot} {file file' : LeaseFile}

theorem write_self : (root.write ℓ file).lease ℓ = some file := Function.update_self _ _ _

theorem write_of_ne (h : ℓ' ≠ ℓ) : (root.write ℓ file).lease ℓ' = root.lease ℓ' :=
  Function.update_of_ne h _ _

theorem owned_write (h : (root.write ℓ file').Owned ℓ' index) :
    root.Owned ℓ' index ∨ (ℓ' = ℓ ∧ file'.status ≠ .released ∧ file'.token = some index) := by
  obtain ⟨f, hf, hstatus, htoken⟩ := h
  by_cases hℓ : ℓ' = ℓ
  · subst hℓ
    rw [write_self, Option.some.injEq] at hf
    subst hf
    exact .inr ⟨rfl, hstatus, htoken⟩
  · rw [write_of_ne hℓ] at hf
    exact .inl ⟨f, hf, hstatus, htoken⟩

theorem ownedSlot_write (h : (root.write ℓ file').OwnedSlot ℓ' slot) :
    root.OwnedSlot ℓ' slot ∨ (ℓ' = ℓ ∧ file'.status ≠ .released ∧ file'.slot = some slot) := by
  obtain ⟨f, hf, hstatus, hslot⟩ := h
  by_cases hℓ : ℓ' = ℓ
  · subst hℓ
    rw [write_self, Option.some.injEq] at hf
    subst hf
    exact .inr ⟨rfl, hstatus, hslot⟩
  · rw [write_of_ne hℓ] at hf
    exact .inl ⟨f, hf, hstatus, hslot⟩

/-- The lease keeps its token and its slot, or is released. -/
def KeepsGrant (file file' : LeaseFile) : Prop :=
  file'.status ≠ .released → file'.token = file.token ∧ file'.slot = file.slot

section

variable (hfile : root.lease ℓ = some file) (hopen : file.status ≠ .released)
  (hkeep : KeepsGrant file file')
include hfile hopen hkeep

theorem owned_of_write (h : (root.write ℓ file').Owned ℓ' index) :
    root.Owned ℓ' index := by
  rcases owned_write h with hbefore | ⟨rfl, hstatus, htoken⟩
  · exact hbefore
  · exact ⟨file, hfile, hopen, (hkeep hstatus).1.symm.trans htoken⟩

theorem ownedSlot_of_write (h : (root.write ℓ file').OwnedSlot ℓ' slot) :
    root.OwnedSlot ℓ' slot := by
  rcases ownedSlot_write h with hbefore | ⟨rfl, hstatus, hslot⟩
  · exact hbefore
  · exact ⟨file, hfile, hopen, (hkeep hstatus).2.symm.trans hslot⟩

end

/-- **A lease file that keeps its grants is written.** -/
theorem SoundRoot.write (h : SoundRoot pool root) (hfile : root.lease ℓ = some file)
    (hopen : file.status ≠ .released) (hkeep : KeepsGrant file file') :
    SoundRoot pool (root.write ℓ file') :=
  { h with
    owner i j index hi hj := h.owner i j index (owned_of_write hfile hopen hkeep hi)
      (owned_of_write hfile hopen hkeep hj)
    lock i index q hi hq := h.lock i index q (owned_of_write hfile hopen hkeep hi) hq
    bound i index hi := h.bound i index (owned_of_write hfile hopen hkeep hi)
    marker i slot hi := h.marker i slot (ownedSlot_of_write hfile hopen hkeep hi)
    slotLock i slot q hi hq := h.slotLock i slot q (ownedSlot_of_write hfile hopen hkeep hi) hq
    runs i f hf := by
      by_cases hi : i = ℓ
      · subst hi
        exact h.runs i file hfile
      · rw [write_of_ne hi] at hf
        exact h.runs i f hf }

/-- Who may write a lease file: its holder, and once that is dead who has `command.lock`, or under
`queue.lock` who reclaims it before it was started. -/
def Writer (root : Root) (p ℓ : ℕ) (file : LeaseFile) : Prop :=
  (ℓ = p ∧ root.holderLock p = true) ∨
    (root.Dead ℓ ∧ (root.commandLock ℓ = some p ∨ file.status = .admitted) ∧
      (root.queueLock = some p ∨ file.status = .draining))

/-- **The others rely on their leases.** -/
theorem RootFrame.write (hq : q ≠ p) (hfile : root.lease ℓ = some file)
    (hopen : file.status ≠ .released) (hwriter : Writer root p ℓ file)
    (hkeep : root.queueLock = some p ∨ KeepsGrant file file') :
    RootFrame root (root.write ℓ file') q where
  queue := Iff.rfl
  issued _ := id
  fresh := id
  holder := rfl
  dead _ := id
  token _ := Iff.rfl
  slotLock _ := Iff.rfl
  command _ := id
  own hheld := by
    refine write_of_ne ?_
    rintro rfl
    rcases hwriter with ⟨hmine, _⟩ | ⟨hdead, _⟩
    · exact hq hmine
    · rw [hdead.2] at hheld
      cases hheld
  draining i f hcommand hdead hf hstatus := by
    by_cases hi : i = ℓ
    · subst hi
      rw [hfile, Option.some.injEq] at hf
      subst hf
      rcases hwriter with ⟨rfl, hheld⟩ | ⟨_, hmine | hadmitted, _⟩
      · rw [hdead.2] at hheld
        cases hheld
      · rw [hcommand] at hmine
        exact absurd (Option.some.inj hmine) hq
      · rw [hstatus] at hadmitted
        cases hadmitted
    · rw [write_of_ne hi]
      exact hf
  admitted i f hqueue hdead hf hstatus := by
    by_cases hi : i = ℓ
    · subst hi
      rw [hfile, Option.some.injEq] at hf
      subst hf
      rcases hwriter with ⟨rfl, hheld⟩ | ⟨_, _, hmine | hdraining⟩
      · rw [hdead.2] at hheld
        cases hheld
      · rw [hqueue] at hmine
        exact absurd (Option.some.inj hmine) hq
      · rw [hstatus] at hdraining
        cases hdraining
    · rw [write_of_ne hi]
      exact hf
  isOver i hi := by
    refine ⟨hi.1, fun f hf => ?_⟩
    by_cases hiℓ : i = ℓ
    · subst hiℓ
      exact absurd (hi.2 file hfile) hopen
    · rw [write_of_ne hiℓ] at hf
      exact hi.2 f hf
  owned hqueue i index hi := by
    rcases hkeep with hmine | hkeep
    · rw [hqueue] at hmine
      exact absurd (Option.some.inj hmine) hq
    · exact owned_of_write hfile hopen hkeep hi
  ownedSlot hqueue i slot hi := by
    rcases hkeep with hmine | hkeep
    · rw [hqueue] at hmine
      exact absurd (Option.some.inj hmine) hq
    · exact ownedSlot_of_write hfile hopen hkeep hi
  marker _ _ _ hm := hm

/-- **A lease is granted** what no other has. -/
theorem SoundRoot.grant (h : SoundRoot pool root) (hfile : root.lease p = some file)
    (hindex : ∀ index, file'.token = some index →
      root.token index = some p ∧ ∀ ℓ, ¬ root.Owned ℓ index)
    (hslot : ∀ slot, file'.slot = some slot → root.slotLock slot = some p ∧
      root.marker slot = some (.leased p) ∧ ∀ ℓ, ¬ root.OwnedSlot ℓ slot) :
    SoundRoot pool (root.write p file') where
  owner i j index hi hj := by
    rcases owned_write hi with hi' | ⟨hip, _, htoken⟩
    · rcases owned_write hj with hj' | ⟨_, _, htoken⟩
      · exact h.owner i j index hi' hj'
      · exact absurd hi' ((hindex index htoken).2 i)
    · rcases owned_write hj with hj' | ⟨hjp, _, _⟩
      · exact absurd hj' ((hindex index htoken).2 j)
      · rw [hip, hjp]
  lock i index q hi hq := by
    rcases owned_write hi with hi | ⟨rfl, _, htoken⟩
    · exact h.lock i index q hi hq
    · have hmine := (hindex index htoken).1
      have hq' : root.token index = some q := hq
      rw [hmine] at hq'
      exact (Option.some.inj hq').symm
  bound i index hi := by
    rcases owned_write hi with hi | ⟨rfl, _, htoken⟩
    · exact h.bound i index hi
    · exact h.lockBound index _ (hindex index htoken).1
  lockBound := h.lockBound
  marker i slot hi := by
    rcases ownedSlot_write hi with hi | ⟨rfl, _, hs⟩
    · exact h.marker i slot hi
    · exact (hslot slot hs).2.1
  slotLock i slot q hi hq := by
    rcases ownedSlot_write hi with hi | ⟨rfl, _, hs⟩
    · exact h.slotLock i slot q hi hq
    · have hmine := (hslot slot hs).1
      have hq' : root.slotLock slot = some q := hq
      rw [hmine] at hq'
      exact (Option.some.inj hq').symm
  runs i f hf := by
    by_cases hi : i = p
    · subst hi
      exact h.runs i file hfile
    · rw [write_of_ne hi] at hf
      exact h.runs i f hf
  issued := h.issued
  nodup := h.nodup

end Leases

/-! ### Markers -/

section Markers

variable {pool : ℕ} {root : Root} {p q ℓ : ℕ} {slot slot' : Slot} {file : LeaseFile} {marker : Marker}

theorem mark_self : (root.mark slot marker).marker slot = some marker := Function.update_self _ _ _

theorem mark_of_ne (h : slot' ≠ slot) :
    (root.mark slot marker).marker slot' = root.marker slot' := Function.update_of_ne h _ _

theorem SoundRoot.mark (h : SoundRoot pool root) (hfree : ∀ ℓ, ¬ root.OwnedSlot ℓ slot) :
    SoundRoot pool (root.mark slot marker) :=
  { h with
    marker i slot' hi := by
      have hne : slot' ≠ slot := by
        rintro rfl
        exact hfree i hi
      rw [mark_of_ne hne]
      exact h.marker i slot' hi }

theorem RootFrame.mark (hother : root.holderLock q = true → root.slotLock slot = some q →
    root.marker slot ≠ some (.leased q)) : RootFrame root (root.mark slot marker) q where
  queue := Iff.rfl
  issued _ := id
  fresh := id
  holder := rfl
  dead _ := id
  token _ := Iff.rfl
  slotLock _ := Iff.rfl
  command _ := id
  own _ := rfl
  draining _ _ _ _ hf _ := hf
  admitted _ _ _ _ hf _ := hf
  isOver _ := id
  owned _ _ _ := id
  ownedSlot _ _ _ := id
  marker slot' hheld hlock hm := by
    have hne : slot' ≠ slot := by
      rintro rfl
      exact hother hheld hlock hm
    rw [mark_of_ne hne]
    exact hm

/-- **The marker of a lease that is over is freed.** -/
theorem SoundRoot.freeSlotMarker {readable : Bool} (h : SoundRoot pool root)
    (hover : root.Over ℓ) : SoundRoot pool (root.freeSlotMarker ℓ file readable) := by
  unfold Root.freeSlotMarker
  split
  · exact h
  · rename_i slot _
    split
    · rename_i hfree
      rw [Bool.and_eq_true, decide_eq_true_eq] at hfree
      refine h.mark fun i hi => ?_
      have hmarker := h.marker i slot hi
      rw [hfree.2, Option.some.injEq, Marker.leased.injEq] at hmarker
      subst hmarker
      obtain ⟨f, hf, hstatus, _⟩ := hi
      exact hstatus (hover.2 f hf)
    · exact h

theorem RootFrame.freeSlotMarker {readable : Bool} (hq : q ≠ p) (hlease : ℓ = p ∨ root.Dead ℓ) :
    RootFrame root (root.freeSlotMarker ℓ file readable) q := by
  unfold Root.freeSlotMarker
  split
  · exact .refl
  · rename_i slot _
    split
    · rename_i hfree
      rw [Bool.and_eq_true, decide_eq_true_eq] at hfree
      refine .mark fun hheld _ hmarker => ?_
      rw [hfree.2, Option.some.injEq, Marker.leased.injEq] at hmarker
      subst hmarker
      rcases hlease with hmine | hdead
      · exact hq hmine
      · rw [hdead.2] at hheld
        cases hheld
    · exact .refl

end Markers

/-! ### Locks -/

section Locks

variable {pool : ℕ} {root : Root} {p q index j : ℕ} {slot : Slot}

/-- **A token that no lease has is taken.** -/
theorem SoundRoot.takeToken (h : SoundRoot pool root) (hbound : index < pool)
    (hfree : ∀ ℓ, ¬ root.Owned ℓ index) : SoundRoot pool (root.setToken index (some p)) :=
  { h with
    lock i j q hi hq := by
      have hne : j ≠ index := by
        rintro rfl
        exact hfree i hi
      refine h.lock i j q hi ?_
      rw [← hq]
      exact (Function.update_of_ne hne _ _).symm
    lockBound j q hq := by
      by_cases hj : j = index
      · rw [hj]
        exact hbound
      · refine h.lockBound j q ?_
        rw [← hq]
        exact (Function.update_of_ne hj _ _).symm }

theorem setToken_none_iff : (root.setToken index none).token j = some q ↔
    root.token j = some q ∧ j ≠ index := by
  by_cases hj : j = index
  · subst hj
    show Function.update root.token j none j = some q ↔ _
    rw [Function.update_self]
    exact ⟨nofun, fun h => absurd rfl h.2⟩
  · show Function.update root.token index none j = some q ↔ _
    rw [Function.update_of_ne hj]
    exact ⟨fun h => ⟨h, hj⟩, fun h => h.1⟩

theorem SoundRoot.closeToken (h : SoundRoot pool root) :
    SoundRoot pool (root.setToken index none) :=
  { h with
    lock i j q hi hq := h.lock i j q hi (setToken_none_iff.mp hq).1
    lockBound j q hq := h.lockBound j q (setToken_none_iff.mp hq).1 }

theorem RootFrame.setToken {next : Option ℕ} (hbefore : root.token index ≠ some q)
    (hafter : next ≠ some q) : RootFrame root (root.setToken index next) q where
  queue := Iff.rfl
  issued _ := id
  fresh := id
  holder := rfl
  dead _ := id
  token j := by
    by_cases hj : j = index
    · subst hj
      show Function.update root.token j next j = some q ↔ _
      rw [Function.update_self]
      exact ⟨fun h => absurd h hafter, fun h => absurd h hbefore⟩
    · show Function.update root.token index next j = some q ↔ _
      rw [Function.update_of_ne hj]
  slotLock _ := Iff.rfl
  command _ := id
  own _ := rfl
  draining _ _ _ _ hf _ := hf
  admitted _ _ _ _ hf _ := hf
  isOver _ := id
  owned _ _ _ := id
  ownedSlot _ _ _ := id
  marker _ _ _ hm := hm

/-- **The lock of a slot that no lease has is taken.** -/
theorem SoundRoot.lockSlot (h : SoundRoot pool root) (hfree : ∀ ℓ, ¬ root.OwnedSlot ℓ slot) :
    SoundRoot pool (root.lockSlot slot p) :=
  { h with
    slotLock i slot' q hi hq := by
      have hne : slot' ≠ slot := by
        rintro rfl
        exact hfree i hi
      refine h.slotLock i slot' q hi ?_
      rw [← hq]
      exact (Function.update_of_ne hne _ _).symm }

theorem RootFrame.lockSlot (hq : q ≠ p) (hfree : root.slotLock slot = none) :
    RootFrame root (root.lockSlot slot p) q where
  queue := Iff.rfl
  issued _ := id
  fresh := id
  holder := rfl
  dead _ := id
  token _ := Iff.rfl
  slotLock slot' := by
    by_cases hs : slot' = slot
    · subst hs
      show Function.update root.slotLock slot' (some p) slot' = some q ↔ _
      rw [Function.update_self, hfree]
      exact ⟨fun h => absurd (Option.some.inj h).symm hq, nofun⟩
    · show Function.update root.slotLock slot (some p) slot' = some q ↔ _
      rw [Function.update_of_ne hs]
  command _ := id
  own _ := rfl
  draining _ _ _ _ hf _ := hf
  admitted _ _ _ _ hf _ := hf
  isOver _ := id
  owned _ _ _ := id
  ownedSlot _ _ _ := id
  marker _ _ _ hm := hm

theorem dropped {o : Option ℕ} : (if o = some p then none else o) = some q ↔ o = some q ∧ q ≠ p := by
  by_cases h : o = some p
  · rw [if_pos h, h]
    exact ⟨nofun, fun ⟨heq, hne⟩ => absurd (Option.some.inj heq).symm hne⟩
  · rw [if_neg h]
    refine ⟨fun hq => ⟨hq, ?_⟩, fun hq => hq.1⟩
    rintro rfl
    exact h hq

/-- **The locks of a process are dropped.** -/
theorem SoundRoot.drop (h : SoundRoot pool root) : SoundRoot pool (root.drop p) :=
  { h with
    lock i j q hi hq := h.lock i j q hi (dropped.mp hq).1
    lockBound j q hq := h.lockBound j q (dropped.mp hq).1
    slotLock i slot q hi hq := h.slotLock i slot q hi (dropped.mp hq).1 }

theorem RootFrame.drop (hq : q ≠ p) : RootFrame root (root.drop p) q where
  queue := dropped.trans (and_iff_left hq)
  issued _ := id
  fresh := id
  holder := Function.update_of_ne hq _ _
  dead ℓ h := by
    refine ⟨h.1, ?_⟩
    show Function.update root.holderLock p false ℓ = false
    by_cases hℓ : ℓ = p
    · subst hℓ
      exact Function.update_self _ _ _
    · rw [Function.update_of_ne hℓ]
      exact h.2
  token _ := dropped.trans (and_iff_left hq)
  slotLock _ := dropped.trans (and_iff_left hq)
  command _ := id
  own _ := rfl
  draining _ _ _ _ hf _ := hf
  admitted _ _ _ _ hf _ := hf
  isOver _ := id
  owned _ _ _ := id
  ownedSlot _ _ _ := id
  marker _ _ _ hm := hm

end Locks

end GoalFlight.RemoteCi
