import GoalFlight.RemoteCi.Grants

/-!
# Remote CI: admission is exclusive

What holds at each place of a holder and of a request, and that each of their steps keeps it,
whatever the others do in between and whenever a holder is killed.
-/

namespace GoalFlight.RemoteCi

/-! ### Places -/

namespace ProcessAt

/-- The places under `queue.lock`. -/
def locked : ProcessAt → Prop
  | .create => True
  | .fork => True
  | .reclaim _ _ => True
  | .tickets => True
  | .scan _ _ _ => True
  | .take _ _ _ => True
  | .slot _ _ => True
  | .mark => True
  | .grant => True
  | .unlink => True
  | .closeQueue => True
  | .drain _ => True
  | .settle _ _ => True
  | .closeSettled _ => True
  | .markReleased _ _ _ => True
  | .freeMarker _ _ _ => True
  | _ => False

/-- The process is the holder of its own lease. -/
def holds (p : ℕ) : ProcessAt → Prop
  | .idle => False
  | .gone => False
  | .enqueue => False
  | .create => False
  | .finish _ => False
  | .collect _ => False
  | .rmtree _ => False
  | .health => False
  | .reclaim report _ => report = false
  | .drainLock lease => lease = p
  | .drain lease => lease = p
  | .clear lease => lease = p
  | .settleLock lease _ => lease = p
  | .settle lease _ => lease = p
  | .closeSettled lease => lease = p
  | .markReleased _ _ (.reclaim report _) => report = false
  | .markReleased lease _ .settled => lease = p
  | .freeMarker _ _ (.reclaim report _) => report = false
  | .freeMarker lease _ .settled => lease = p
  | _ => True

/-- Its lease is not released yet. -/
def current (p : ℕ) : ProcessAt → Prop
  | .closeToken => False
  | .exit => False
  | .closeSettled _ => False
  | .freeMarker _ _ .settled => False
  | place => place.holds p

/-- It has a token that its lease has not. -/
def pending : ProcessAt → Prop
  | .slot _ _ => True
  | .mark => True
  | .grant => True
  | _ => False

/-- The marker of its slot is not written yet. -/
def unmarked : ProcessAt → Prop
  | .slot _ _ => True
  | .mark => True
  | _ => False

/-- It has no token yet. -/
def bare : ProcessAt → Prop
  | .health => True
  | .fork => True
  | .look => True
  | .queue => True
  | .reclaim _ _ => True
  | .markReleased _ _ (.reclaim _ _) => True
  | .freeMarker _ _ (.reclaim _ _) => True
  | .tickets => True
  | .scan _ _ _ => True
  | .take _ _ _ => True
  | _ => False

/-- It was not enqueued yet. -/
def unissued : ProcessAt → Prop
  | .idle => True
  | .enqueue => True
  | .create => True
  | _ => False

end ProcessAt

/-- What a process has found, and what it may rely on since. -/
def Process.Found (pool : ℕ) (root : Root) (p : ℕ) (process : Process) : ProcessAt → Prop
  | .scan count found todo =>
    count ≤ pool ∧ ∀ ℓ index, root.Owned ℓ index → index ∈ found ∨ ℓ ∈ todo
  | .take count found _ => count ≤ pool ∧ ∀ ℓ index, root.Owned ℓ index → index ∈ found
  | .slot _ _ => process.token.isSome ∧ process.slot = none ∧
      ∀ index, process.token = some index → ∀ ℓ, ¬ root.Owned ℓ index
  | .mark => process.token.isSome ∧ process.slot.isSome ∧
      (∀ index, process.token = some index → ∀ ℓ, ¬ root.Owned ℓ index) ∧
      ∀ slot, process.slot = some slot → ∀ ℓ, ¬ root.OwnedSlot ℓ slot
  | .grant => process.token.isSome ∧ process.slot.isSome ∧
      (∀ index, process.token = some index → ∀ ℓ, ¬ root.Owned ℓ index) ∧
      ∀ slot, process.slot = some slot → ∀ ℓ, ¬ root.OwnedSlot ℓ slot
  | .unlink => process.token.isSome
  | .closeQueue => process.token = none → process.slot = none
  | .drainLock lease => lease ≠ p → root.commandLock lease = some p ∧ root.Dead lease
  | .drain lease => lease ≠ p → root.commandLock lease = some p ∧ root.Dead lease
  | .clear lease => lease ≠ p → root.commandLock lease = some p ∧ root.Dead lease ∧
      ∃ file, root.lease lease = some file ∧ file.status = .draining
  | .settleLock lease _ => lease ≠ p → root.commandLock lease = some p ∧ root.Dead lease ∧
      ∃ file, root.lease lease = some file ∧ file.status = .draining
  | .settle lease _ => lease ≠ p → root.commandLock lease = some p ∧ root.Dead lease ∧
      ∃ file, root.lease lease = some file ∧ file.status = .draining
  | .closeSettled lease => lease ≠ p → root.commandLock lease = some p
  | .markReleased lease file (.reclaim _ _) =>
    root.Dead lease ∧ root.lease lease = some file ∧ file.status = .admitted
  | .markReleased lease file .settled =>
    if lease = p then root.lease lease = some file ∧ file.status ≠ .released
    else root.commandLock lease = some p ∧ root.Dead lease ∧ root.lease lease = some file ∧
      file.status = .draining
  | .freeMarker lease _ (.reclaim _ _) => root.Dead lease ∧ root.Over lease
  | .freeMarker lease _ .settled => root.Over lease ∧
      (lease = p ∨ (root.commandLock lease = some p ∧ root.Dead lease))
  | .finish lease => lease ≠ p
  | .rmtree lease => root.Dead lease ∧ root.Over lease
  | _ => True

/-- The lease of a holder is as the holder has it in memory. -/
structure Process.Current (root : Root) (p : ℕ) (process : Process) : Prop where
  file : ∃ file, root.lease p = some file ∧ file.status ≠ .released ∧
    file.token = process.state.token ∧ file.slot = process.state.slot
  pending : process.place.pending → process.state.token = none ∧ process.state.slot = none
  granted : ¬ process.place.pending →
    process.state.token = process.token ∧ process.state.slot = process.slot
  status : process.state.status ≠ .released

/-- **What holds at the place of a process.** -/
structure ProcessOk (pool : ℕ) (root : Root) (p : ℕ) (process : Process) : Prop where
  queue : root.queueLock = some p ↔ process.place.locked
  unissued : process.place.unissued → p ∉ root.issued ∧ process.state = Process.idle.state
  holder : process.place.holds p → p ∈ root.issued ∧ root.holderLock p = true
  token : ∀ index, root.token index = some p ↔ process.token = some index
  slotLock : ∀ slot, root.slotLock slot = some p ↔ process.slot = some slot
  free : ¬ process.place.holds p → process.token = none ∧ process.slot = none
  bare : process.place.bare → process.token = none ∧ process.slot = none
  current : process.place.current p → process.Current root p
  marked : process.place.current p → ¬ process.place.unmarked →
    ∀ slot, process.slot = some slot → root.marker slot = some (.leased p)
  found : process.Found pool root p process.place

section Stable

variable {pool p q : ℕ} {root root' : Root} {process : Process}

theorem ProcessAt.holds_of_current {place : ProcessAt} (h : place.current p) : place.holds p := by
  cases place with
  | closeToken => cases h
  | exit => cases h
  | closeSettled lease => cases h
  | freeMarker lease file after =>
    cases after with
    | reclaim health todo => exact h
    | settled => cases h
  | _ => exact h

/-- **The others leave what a process has found.** -/
theorem Process.Found.frame {place : ProcessAt} (hframe : RootFrame root root' q)
    (hqueue : place.locked → root.queueLock = some q)
    (hheld : place.holds q → root.holderLock q = true)
    (h : process.Found pool root q place) : process.Found pool root' q place := by
  have hclear : ∀ {ℓ}, (ℓ ≠ q → root.commandLock ℓ = some q ∧ root.Dead ℓ ∧
      ∃ file, root.lease ℓ = some file ∧ file.status = .draining) →
      ℓ ≠ q → root'.commandLock ℓ = some q ∧ root'.Dead ℓ ∧
        ∃ file, root'.lease ℓ = some file ∧ file.status = .draining := by
    intro ℓ hdrain hne
    obtain ⟨hcommand, hdead, file, hfile, hstatus⟩ := hdrain hne
    exact ⟨hframe.command ℓ hcommand, hframe.dead ℓ hdead, file,
      hframe.draining ℓ file hcommand hdead hfile hstatus, hstatus⟩
  cases place with
  | scan count found todo =>
    exact ⟨h.1, fun ℓ index hℓ => h.2 ℓ index (hframe.owned (hqueue trivial) ℓ index hℓ)⟩
  | take count found index =>
    exact ⟨h.1, fun ℓ index hℓ => h.2 ℓ index (hframe.owned (hqueue trivial) ℓ index hℓ)⟩
  | slot count index =>
    obtain ⟨htoken, hslot, hindex⟩ := h
    exact ⟨htoken, hslot, fun i hi ℓ hℓ => hindex i hi ℓ (hframe.owned (hqueue trivial) ℓ i hℓ)⟩
  | mark =>
    obtain ⟨htoken, hslot, hindex, hfree⟩ := h
    exact ⟨htoken, hslot, fun i hi ℓ hℓ => hindex i hi ℓ (hframe.owned (hqueue trivial) ℓ i hℓ),
      fun s hs ℓ hℓ => hfree s hs ℓ (hframe.ownedSlot (hqueue trivial) ℓ s hℓ)⟩
  | grant =>
    obtain ⟨htoken, hslot, hindex, hfree⟩ := h
    exact ⟨htoken, hslot, fun i hi ℓ hℓ => hindex i hi ℓ (hframe.owned (hqueue trivial) ℓ i hℓ),
      fun s hs ℓ hℓ => hfree s hs ℓ (hframe.ownedSlot (hqueue trivial) ℓ s hℓ)⟩
  | unlink => exact h
  | closeQueue => exact h
  | drainLock lease =>
    exact fun hne => ⟨hframe.command _ (h hne).1, hframe.dead _ (h hne).2⟩
  | drain lease =>
    exact fun hne => ⟨hframe.command _ (h hne).1, hframe.dead _ (h hne).2⟩
  | clear lease => exact hclear h
  | settleLock lease ok => exact hclear h
  | settle lease ok => exact hclear h
  | closeSettled lease => exact fun hne => hframe.command _ (h hne)
  | markReleased lease file after =>
    cases after with
    | reclaim health todo =>
      obtain ⟨hdead, hfile, hstatus⟩ := h
      exact ⟨hframe.dead _ hdead,
        hframe.admitted _ _ (hqueue trivial) hdead hfile hstatus, hstatus⟩
    | settled =>
      unfold Process.Found at h ⊢
      dsimp only at h ⊢
      by_cases hmine : lease = q
      · subst hmine
        rw [if_pos rfl] at h ⊢
        rw [hframe.own (hheld rfl)]
        exact h
      · rw [if_neg hmine] at h ⊢
        obtain ⟨hcommand, hdead, hfile, hstatus⟩ := h
        exact ⟨hframe.command _ hcommand, hframe.dead _ hdead,
          hframe.draining _ _ hcommand hdead hfile hstatus, hstatus⟩
  | freeMarker lease file after =>
    cases after with
    | reclaim health todo => exact ⟨hframe.dead _ h.1, hframe.isOver _ h.2⟩
    | settled =>
      refine ⟨hframe.isOver _ h.1, h.2.imp id fun ⟨hcommand, hdead⟩ => ?_⟩
      exact ⟨hframe.command _ hcommand, hframe.dead _ hdead⟩
  | rmtree lease => exact ⟨hframe.dead _ h.1, hframe.isOver _ h.2⟩
  | finish lease => exact h
  | _ => trivial

/-- **The others leave what holds at the place of a process.** -/
theorem ProcessOk.frame (hframe : RootFrame root root' q) (h : ProcessOk pool root q process) :
    ProcessOk pool root' q process where
  queue := hframe.queue.trans h.queue
  unissued hplace := ⟨hframe.fresh (h.unissued hplace).1, (h.unissued hplace).2⟩
  holder hplace := ⟨hframe.issued q (h.holder hplace).1, hframe.holder.trans (h.holder hplace).2⟩
  token index := (hframe.token index).trans (h.token index)
  slotLock slot := (hframe.slotLock slot).trans (h.slotLock slot)
  free := h.free
  bare := h.bare
  current hplace := by
    have hcurrent := h.current hplace
    refine ⟨?_, hcurrent.pending, hcurrent.granted, hcurrent.status⟩
    rw [hframe.own (h.holder (ProcessAt.holds_of_current hplace)).2]
    exact hcurrent.file
  marked hplace hmarked slot hslot := hframe.marker slot
    (h.holder (ProcessAt.holds_of_current hplace)).2 ((h.slotLock slot).mpr hslot)
    (h.marked hplace hmarked slot hslot)
  found := h.found.frame hframe h.queue.mpr fun hplace => (h.holder hplace).2

end Stable

/-! ### Turns -/

/-- **A step keeps** what holds of the root, what the others rely on, and what holds at its own
place. -/
structure Served (pool : ℕ) (root : Root) (p : ℕ) (next : Root × Process) : Prop where
  sound : SoundRoot pool next.1
  others : ∀ q, q ≠ p → RootFrame root next.1 q
  own : ProcessOk pool next.1 p next.2

section Moves

variable {pool p : ℕ} {root root' : Root} {process : Process} {before place : ProcessAt}

/-- What the own step leaves, where the lease is not released yet. -/
structure OwnFrame (root root' : Root) (p : ℕ) (current : Prop) : Prop where
  issued : root'.issued = root.issued
  holder : root'.holderLock p = root.holderLock p
  token : root'.token = root.token
  slotLock : root'.slotLock = root.slotLock
  lease : current → ∀ file, root.lease p = some file → file.status ≠ .released →
    ∃ file', root'.lease p = some file' ∧ file'.status ≠ .released ∧ file'.token = file.token ∧
      file'.slot = file.slot
  marker : current → ∀ slot, root.marker slot = some (.leased p) →
    root'.marker slot = some (.leased p)

/-- What the places before and after a move have in common. -/
structure Moves (p : ℕ) (process : Process) (place place' : ProcessAt) : Prop where
  unissued : place'.unissued → place.unissued
  holds : place'.holds p ↔ place.holds p
  bare : place'.bare → place.bare ∨ process.token = none ∧ process.slot = none
  current : place'.current p → place.current p
  pending : place'.pending ↔ place.pending
  unmarked : place.unmarked → place'.unmarked

/-- **A process goes on**, and keeps what it has. -/
theorem ProcessOk.move (h : ProcessOk pool root p (process.goto before))
    (hframe : OwnFrame root root' p (place.current p)) (hmoves : Moves p process before place)
    (hqueue : root'.queueLock = some p ↔ place.locked)
    (hfound : (process.goto place).Found pool root' p place) :
    ProcessOk pool root' p (process.goto place) where
  queue := hqueue
  unissued hplace := by
    rw [hframe.issued]
    exact h.unissued (hmoves.unissued hplace)
  holder hplace := by
    rw [hframe.issued, hframe.holder]
    exact h.holder (hmoves.holds.mp hplace)
  token index := by
    rw [hframe.token]
    exact h.token index
  slotLock slot := by
    rw [hframe.slotLock]
    exact h.slotLock slot
  free hplace := h.free fun hheld => hplace (hmoves.holds.mpr hheld)
  bare hplace := (hmoves.bare hplace).elim h.bare id
  current hplace := by
    have hcurrent := h.current (hmoves.current hplace)
    refine ⟨?_, fun hpending => hcurrent.pending (hmoves.pending.mp hpending),
      fun hgranted => hcurrent.granted fun hpending => hgranted (hmoves.pending.mpr hpending),
      hcurrent.status⟩
    obtain ⟨file, hfile, hopen, htoken, hslot⟩ := hcurrent.file
    obtain ⟨file', hfile', hopen', htoken', hslot'⟩ := hframe.lease hplace file hfile hopen
    exact ⟨file', hfile', hopen', htoken'.trans htoken, hslot'.trans hslot⟩
  marked hplace hmarked slot hslot := hframe.marker hplace slot
    (h.marked (hmoves.current hplace) (fun hbefore => hmarked (hmoves.unmarked hbefore)) slot hslot)
  found := hfound

theorem SameFiles.own {current : Prop} (h : SameFiles root root') :
    OwnFrame root root' p current :=
  { h with
    holder := by rw [h.holderLock]
    lease _ file hfile hopen := ⟨file, by rw [h.lease, hfile], hopen, rfl, rfl⟩
    marker _ slot hslot := by
      rw [h.marker]
      exact hslot }

theorem OwnFrame.write {current : Prop} {ℓ : ℕ} {file file' : LeaseFile}
    (hfile : root.lease ℓ = some file) (hkeep : KeepsGrant file file')
    (hopen : current → ℓ = p → file'.status ≠ .released) :
    OwnFrame root (root.write ℓ file') p current where
  issued := rfl
  holder := rfl
  token := rfl
  slotLock := rfl
  lease hcurrent f hf hstatus := by
    by_cases hℓ : ℓ = p
    · subst hℓ
      rw [hfile, Option.some.injEq] at hf
      subst hf
      exact ⟨file', write_self, hopen hcurrent rfl, hkeep (hopen hcurrent rfl)⟩
    · refine ⟨f, ?_, hstatus, rfl, rfl⟩
      rw [write_of_ne (Ne.symm hℓ)]
      exact hf
  marker _ _ hslot := hslot

section

variable (hs : SoundRoot pool root)
include hs

theorem Served.stay (h : ProcessOk pool root p (process.goto before))
    (hmoves : Moves p process before place) (hlocked : place.locked ↔ before.locked)
    (hfound : (process.goto place).Found pool root p place) :
    Served pool root p (root, process.goto place) where
  sound := hs
  others _ _ := .refl
  own := h.move SameFiles.refl.own hmoves (h.queue.trans hlocked.symm) hfound

theorem Served.refl (h : ProcessOk pool root p process) :
    Served pool root p (root, process) := ⟨hs, fun _ _ => .refl, h⟩

section

variable (h : ProcessOk pool root p (process.goto before))
include h

/-- **`queue.lock` is taken.** -/
theorem Served.lockQueue (hfree : root.queueLock = none)
    (hmoves : Moves p process before place) (hlocked : place.locked)
    (hfound : (process.goto place).Found pool (root.lockQueue p) p place) :
    Served pool root p (root.lockQueue p, process.goto place) where
  sound := hs.same ⟨rfl, rfl, rfl, rfl, rfl, rfl, rfl⟩
  others _ hq := .lockQueue hq hfree
  own := h.move (SameFiles.own ⟨rfl, rfl, rfl, rfl, rfl, rfl, rfl⟩) hmoves
    ⟨fun _ => hlocked, fun _ => rfl⟩ hfound

/-- **`queue.lock` is closed.** -/
theorem Served.unlockQueue (hmine : before.locked) (hmoves : Moves p process before place)
    (hlocked : ¬ place.locked)
    (hfound : (process.goto place).Found pool root.unlockQueue p place) :
    Served pool root p (root.unlockQueue, process.goto place) where
  sound := hs.same ⟨rfl, rfl, rfl, rfl, rfl, rfl, rfl⟩
  others _ hq := .unlockQueue hq (h.queue.mpr hmine)
  own := h.move (SameFiles.own ⟨rfl, rfl, rfl, rfl, rfl, rfl, rfl⟩) hmoves
    ⟨nofun, fun hplace => absurd hplace hlocked⟩ hfound

/-- **A lease file is written** that keeps its grants. -/
theorem Served.write {ℓ : ℕ} {file file' : LeaseFile} (hfile : root.lease ℓ = some file)
    (hopen : file.status ≠ .released) (hwriter : Writer root p ℓ file)
    (hkeep : KeepsGrant file file') (hown : place.current p → ℓ = p → file'.status ≠ .released)
    (hmoves : Moves p process before place) (hlocked : place.locked ↔ before.locked)
    (hfound : (process.goto place).Found pool (root.write ℓ file') p place) :
    Served pool root p (root.write ℓ file', process.goto place) where
  sound := hs.write hfile hopen hkeep
  others _ hq := .write hq hfile hopen hwriter (.inr hkeep)
  own := h.move (.write hfile hkeep hown) hmoves (h.queue.trans hlocked.symm) hfound

theorem Served.same (hsame : SameFiles root root') (hqueue : root'.queueLock = root.queueLock)
    (hcommand : root'.commandLock = root.commandLock) (hmoves : Moves p process before place)
    (hlocked : place.locked ↔ before.locked)
    (hfound : (process.goto place).Found pool root' p place) :
    Served pool root p (root', process.goto place) where
  sound := hs.same hsame
  others _ _ := by
    refine .same hsame (by rw [hqueue]) fun ℓ hℓ => ?_
    rw [hcommand]
    exact hℓ
  own := by
    refine h.move hsame.own hmoves ?_ hfound
    rw [hqueue]
    exact h.queue.trans hlocked.symm

end

end

theorem Served.trans {next : Root × Process}
    (hframe : ∀ q, q ≠ p → RootFrame root root' q) (h : Served pool root' p next) :
    Served pool root p next where
  sound := h.sound
  others q hq := (hframe q hq).trans (h.others q hq)
  own := h.own

end Moves

end GoalFlight.RemoteCi
