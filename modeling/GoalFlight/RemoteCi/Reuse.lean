import Mathlib.Data.Finset.Card
import GoalFlight.RemoteCi.AdmissionTurns

/-!
# Remote CI: tokens and slots are exclusive, and are granted again

In every run every token index and every slot has at most one lease that is not released, however
the processes interleave and whichever holders are killed (`admission_exclusive`).  Once all are
gone and all leases are released, each can be granted again, in a run in which no body is collected
while a slot marker still names it: `lease_slot` looks up the lease of a marker in the run
directory, so a marker that outlives the body keeps its slot for ever.
-/

namespace GoalFlight.RemoteCi

/-! ### What is promised -/

/-- A lease has a token index: on disk, or its holder has the lock. -/
def Root.HasToken (root : Root) (lease index : ℕ) : Prop :=
  root.Owned lease index ∨ root.token index = some lease

/-- A lease has a slot. -/
def Root.HasSlot (root : Root) (lease : ℕ) (slot : Slot) : Prop :=
  root.OwnedSlot lease slot ∨ root.slotLock slot = some lease

/-- **What is promised of each state.** -/
structure AdmissionSafe (pool : ℕ) (root : Root) : Prop where
  token : ∀ ℓ ℓ' index, root.HasToken ℓ index → root.HasToken ℓ' index → ℓ = ℓ'
  slot : ∀ ℓ ℓ' slot, root.HasSlot ℓ slot → root.HasSlot ℓ' slot → ℓ = ℓ'
  pool : ∀ leases : Finset ℕ, (∀ ℓ ∈ leases, ∃ index, root.HasToken ℓ index) → leases.card ≤ pool

/-- In this attempt the process has passed the lease. -/
def ProcessAt.Past (lease : ℕ) : ProcessAt → Prop
  | .scan _ _ todo => lease ∉ todo
  | .take _ _ _ => True
  | .slot _ _ => True
  | .mark => True
  | .grant => True
  | _ => False

/-- **What is promised of each step**: nobody passes an unreadable lease, and a token is taken only
by a process that has passed every lease. -/
structure AdmissionStepSafe (pool : ℕ) (s : RootState) (action : RootAction) : Prop where
  unreadable : ∀ p a ℓ, action = .turn p a → ℓ ∈ s.shared.runs → s.shared.read a ℓ = none →
    ((rootStep pool s action).place p).place.Past ℓ → (s.place p).place.Past ℓ
  taken : ∀ p a index, action = .turn p a →
    (rootStep pool s action).shared.token index = some p →
      s.shared.token index = some p ∨ ∀ ℓ, (s.place p).place.Past ℓ

/-- Every process is gone, and every lease is released. -/
structure AllReleased (s : RootState) : Prop where
  gone : ∀ p, (s.place p).place = .idle ∨ (s.place p).place = .gone
  released : ∀ ℓ ∈ s.shared.runs, ∀ file, s.shared.lease ℓ = some file → file.status = .released

/-- **Every token index and every slot can be granted**: no lock is held, each lease can be read and
reserves no index, and no marker keeps its slot. -/
structure Reusable (root : Root) : Prop where
  queue : root.queueLock = none
  token : ∀ index, root.token index = none
  unreserved : ∀ ℓ ∈ root.runs, ∃ file, root.lease ℓ = some file ∧ file.status = .released
  slot : ∀ slot, root.slotLock slot = none ∧ root.usable slot = true

/-- **What the collection of a body has to heed**: no marker names the lease, and the directory goes
with the lease file. -/
def rootHeeds (s : RootState) : RootAction → Prop
  | .turn p a =>
    match (s.place p).place with
    | .rmtree lease => a.ok = true ∧ ∀ slot, s.shared.marker slot ≠ some (.leased lease)
    | _ => True
  | _ => True

/-! ### Every state -/

/-- What holds between the steps. -/
abbrev SoundAdmission (pool : ℕ) : RootState → Prop :=
  Threads.Holds (SoundRoot pool) (ProcessOk pool)

theorem soundRoot_empty (pool : ℕ) : SoundRoot pool Root.empty where
  owner _ _ _ h := absurd h fun ⟨_, hfile, _⟩ => by cases hfile
  lock _ _ _ _ h := by cases h
  bound _ _ h := absurd h fun ⟨_, hfile, _⟩ => by cases hfile
  lockBound _ _ h := by cases h
  marker _ _ h := absurd h fun ⟨_, hfile, _⟩ => by cases hfile
  slotLock _ _ _ _ h := by cases h
  runs _ _ h := by cases h
  issued _ h := by cases h
  nodup := List.nodup_nil

theorem soundAdmission_start (pool : ℕ) : SoundAdmission pool RootState.start where
  inv := soundRoot_empty pool
  ok _ := ⟨⟨nofun, nofun⟩, fun _ => ⟨nofun, rfl⟩, nofun, fun _ => ⟨nofun, nofun⟩,
    fun _ => ⟨nofun, nofun⟩, fun _ => ⟨rfl, rfl⟩, nofun, nofun, nofun, trivial⟩

section Steps

variable {pool p : ℕ} {s : RootState} {root : Root} {process : Process}

/-- **A process is called.** -/
theorem ProcessOk.call {request : RootRequest} (h : ProcessOk pool root p process)
    (hidle : process.place = .idle) (hother : request ≠ .finish p) :
    ProcessOk pool root p request.process := by
  have hqueue := h.queue
  have hfresh := h.unissued (by rw [hidle]; trivial)
  obtain ⟨htoken, hslot⟩ := h.free (by rw [hidle]; exact id)
  have hindex := h.token
  have hlock := h.slotLock
  rw [hidle] at hqueue
  rw [htoken] at hindex
  rw [hslot] at hlock
  cases request with
  | enqueue repo =>
    exact ⟨hqueue, fun _ => ⟨hfresh.1, rfl⟩, nofun, hindex, hlock, fun _ => ⟨rfl, rfl⟩, nofun,
      nofun, nofun, trivial⟩
  | finish lease =>
    refine ⟨hqueue, nofun, nofun, hindex, hlock, fun _ => ⟨rfl, rfl⟩, nofun, nofun, nofun, ?_⟩
    rintro rfl
    exact hother rfl
  | collect lease =>
    exact ⟨hqueue, nofun, nofun, hindex, hlock, fun _ => ⟨rfl, rfl⟩, nofun, nofun, nofun, trivial⟩
  | health =>
    exact ⟨hqueue, nofun, nofun, hindex, hlock, fun _ => ⟨rfl, rfl⟩, fun _ => ⟨rfl, rfl⟩, nofun,
      nofun, trivial⟩

/-- **Every step keeps what holds.** -/
theorem rootStep_keeps (action : RootAction) (h : SoundAdmission pool s) :
    SoundAdmission pool (rootStep pool s action) := by
  have hserved : ∀ {p' next}, Served pool s.shared p' next →
      SoundAdmission pool (s.turn p' next) :=
    fun hserved => h.turn hserved.sound hserved.own fun q hq hok => hok.frame (hserved.others q hq)
  cases action with
  | call p request =>
    unfold rootStep
    dsimp only
    split
    · rename_i hcall
      exact hserved ⟨h.inv, fun _ _ => .refl, (h.ok p).call hcall.1 hcall.2⟩
    · exact h
  | turn p a => exact hserved (processTurn_served h.inv (h.ok p))
  | kill p =>
    unfold rootStep
    dsimp only
    split
    · exact hserved (drop_served h.inv)
    · exact h

theorem soundAdmission_run (pool : ℕ) (actions : List RootAction) :
    SoundAdmission pool (Machine.run (rootStep pool) RootState.start actions) :=
  Machine.run_invariant (fun _ action h => rootStep_keeps action h) (soundAdmission_start pool)
    actions

end Steps

/-! ### Exclusive grants -/

section Safe

variable {pool : ℕ} {root : Root}

section

variable (h : SoundRoot pool root)
include h

theorem SoundRoot.hasToken_unique (ℓ ℓ' index : ℕ) (hℓ : root.HasToken ℓ index)
    (hℓ' : root.HasToken ℓ' index) : ℓ = ℓ' := by
  rcases hℓ with hℓ | hℓ <;> rcases hℓ' with hℓ' | hℓ'
  · exact h.owner ℓ ℓ' index hℓ hℓ'
  · exact (h.lock ℓ index ℓ' hℓ hℓ').symm
  · exact h.lock ℓ' index ℓ hℓ' hℓ
  · rw [hℓ] at hℓ'
    exact Option.some.inj hℓ'

theorem SoundRoot.hasSlot_unique (ℓ ℓ' : ℕ) (slot : Slot) (hℓ : root.HasSlot ℓ slot)
    (hℓ' : root.HasSlot ℓ' slot) : ℓ = ℓ' := by
  rcases hℓ with hℓ | hℓ <;> rcases hℓ' with hℓ' | hℓ'
  · have hmarker := h.marker ℓ slot hℓ
    rw [h.marker ℓ' slot hℓ', Option.some.injEq, Marker.leased.injEq] at hmarker
    exact hmarker.symm
  · exact (h.slotLock ℓ slot ℓ' hℓ hℓ').symm
  · exact h.slotLock ℓ' slot ℓ hℓ' hℓ
  · rw [hℓ] at hℓ'
    exact Option.some.inj hℓ'

theorem SoundRoot.hasToken_lt {ℓ index : ℕ} (hℓ : root.HasToken ℓ index) : index < pool :=
  hℓ.elim (h.bound ℓ index) (h.lockBound index ℓ)

/-- **No more leases than tokens.** -/
theorem SoundRoot.card_le (leases : Finset ℕ)
    (hall : ∀ ℓ ∈ leases, ∃ index, root.HasToken ℓ index) : leases.card ≤ pool := by
  classical
  choose! index hindex using hall
  rw [← Finset.card_range pool]
  refine Finset.card_le_card_of_injOn index (fun ℓ hℓ => ?_) fun ℓ hℓ ℓ' hℓ' heq => ?_
  · exact Finset.mem_coe.mpr (Finset.mem_range.mpr (h.hasToken_lt (hindex ℓ hℓ)))
  · refine h.hasToken_unique ℓ ℓ' (index ℓ) (hindex ℓ hℓ) ?_
    rw [heq]
    exact hindex ℓ' hℓ'

theorem SoundRoot.safe : AdmissionSafe pool root :=
  ⟨h.hasToken_unique, h.hasSlot_unique, h.card_le⟩

end

end Safe

/-! ### Unreadable leases -/

section Unreadable

variable {pool p ℓ : ℕ} {root : Root} {process : Process} {a : RootAnswer}

/-- **Nobody passes an unreadable lease.** -/
theorem past_of_turn (hruns : ℓ ∈ root.runs) (hread : root.read a ℓ = none)
    (h : (processTurn pool a p process root).2.place.Past ℓ) : process.place.Past ℓ := by
  obtain ⟨place, repo, state, token, slot⟩ := process
  cases place with
  | tickets =>
    unfold processTurn at h
    dsimp only at h
    split at h
    · exact absurd hruns h
    · exact h
  | scan count found todo =>
    cases todo with
    | nil => exact List.not_mem_nil
    | cons m todo =>
      -- the lease itself ends the attempt
      have hne : ℓ ∉ todo → ℓ ≠ m → ℓ ∉ m :: todo := fun htodo hm hmem =>
        (List.mem_cons.mp hmem).elim hm htodo
      unfold processTurn scanTurn at h
      dsimp only at h
      split at h
      · rename_i hgone
        refine hne h ?_
        rintro rfl
        exact hgone hruns
      · split at h
        · cases h
        · rename_i file hfile
          have hm : ℓ ≠ m := by
            rintro rfl
            rw [hread] at hfile
            cases hfile
          split at h
          · exact hne h hm
          · split at h
            · exact hne h hm
            · exact hne h hm
  | take count found index => trivial
  | slot count index => trivial
  | mark => trivial
  | grant => trivial
  | reclaim health todo =>
    cases todo with
    | nil =>
      cases health with
      | true => exact h
      | false => exact h
    | cons m todo =>
      unfold processTurn reclaimTurn at h
      dsimp only at h
      split at h
      · exact h
      · split at h
        · exact h
        · exact h
  | closeToken =>
    cases token with
    | none => exact h
    | some token => exact h
  | freeMarker m file after =>
    cases after with
    | reclaim health todo => exact h
    | settled => exact h
  | _ =>
    simp only [processTurn, drainTurn, clearTurn, settleTurn, endRelease] at h
    repeat' split at h
    all_goals exact h

/-- **A token is taken** at one place. -/
theorem token_of_turn {index : ℕ} (h : (processTurn pool a p process root).1.token index = some p) :
    root.token index = some p ∨ ∃ count found k, process.place = .take count found k := by
  obtain ⟨place, repo, state, token, slot⟩ := process
  cases place with
  | take count found k => exact .inr ⟨count, found, k, rfl⟩
  | slot count k =>
    unfold processTurn slotTurn at h
    dsimp only at h
    split at h
    · split at h
      · exact .inl h
      · exact .inl h
    · split at h
      · exact .inl h
      · exact .inl (setToken_none_iff.mp h).1
  | closeToken =>
    cases token with
    | none => exact .inl h
    | some token => exact .inl (setToken_none_iff.mp h).1
  | exit => exact .inl (dropped.mp h).1
  | mark =>
    cases slot with
    | none => exact .inl h
    | some slot => exact .inl h
  | reclaim health todo =>
    cases todo with
    | nil =>
      cases health with
      | true => exact .inl h
      | false => exact .inl h
    | cons m todo =>
      unfold processTurn reclaimTurn at h
      dsimp only at h
      split at h
      · exact .inl h
      · split at h
        · exact .inl h
        · exact .inl h
  | scan count found todo =>
    cases todo with
    | nil => exact .inl h
    | cons m todo =>
      unfold processTurn scanTurn at h
      dsimp only at h
      repeat' split at h
      all_goals exact .inl h
  | freeMarker m file after =>
    unfold processTurn Root.freeSlotMarker at h
    dsimp only at h
    repeat' split at h
    all_goals exact .inl h
  | _ =>
    simp only [processTurn, drainTurn, clearTurn, settleTurn, endRelease] at h
    repeat' split at h
    all_goals exact .inl h

theorem rootStep_safe (s : RootState) (action : RootAction) : AdmissionStepSafe pool s action where
  unreadable p a ℓ haction hruns hread hpast := by
    subst haction
    unfold rootStep at hpast
    dsimp only at hpast
    rw [s.turn_place_self] at hpast
    exact past_of_turn hruns hread hpast
  taken p a index haction htoken := by
    subst haction
    refine (token_of_turn htoken).imp id fun ⟨count, found, k, hplace⟩ ℓ => ?_
    rw [hplace]
    trivial

end Unreadable

/-! ### Grants again -/

/-- Each run directory has its lease, and so has each lease that a marker names. -/
structure KeptBodies (root : Root) : Prop where
  present : ∀ ℓ ∈ root.runs, (root.lease ℓ).isSome
  named : ∀ slot ℓ, root.marker slot = some (.leased ℓ) → (root.lease ℓ).isSome

/-- A change that removes no lease file, and adds no run directory and names no lease without. -/
structure KeepsBodies (root root' : Root) : Prop where
  lease : ∀ ℓ, (root.lease ℓ).isSome → (root'.lease ℓ).isSome
  runs : ∀ ℓ ∈ root'.runs, ℓ ∈ root.runs ∨ (root'.lease ℓ).isSome
  marker : ∀ slot ℓ, root'.marker slot = some (.leased ℓ) →
    root.marker slot = some (.leased ℓ) ∨ (root'.lease ℓ).isSome

section Bodies

variable {pool p ℓ : ℕ} {root root' root'' : Root} {process : Process} {a : RootAnswer}

theorem KeptBodies.keep (h : KeptBodies root) (hkeeps : KeepsBodies root root') :
    KeptBodies root' where
  present ℓ hℓ := (hkeeps.runs ℓ hℓ).elim (fun hmem => hkeeps.lease ℓ (h.present ℓ hmem)) id
  named slot ℓ hℓ :=
    (hkeeps.marker slot ℓ hℓ).elim (fun hmem => hkeeps.lease ℓ (h.named slot ℓ hmem)) id

theorem KeepsBodies.of_eq (hlease : root'.lease = root.lease) (hruns : root'.runs = root.runs)
    (hmarker : root'.marker = root.marker) : KeepsBodies root root' where
  lease ℓ h := by
    rw [hlease]
    exact h
  runs ℓ h := by
    rw [hruns] at h
    exact .inl h
  marker slot ℓ h := by
    rw [hmarker] at h
    exact .inl h

theorem isSome_write {file : LeaseFile} {ℓ' : ℕ} (h : (root.lease ℓ').isSome) :
    ((root.write ℓ file).lease ℓ').isSome := by
  by_cases hℓ : ℓ' = ℓ
  · rw [hℓ, write_self]
    rfl
  · rw [write_of_ne hℓ]
    exact h

theorem KeepsBodies.write {file : LeaseFile} : KeepsBodies root (root.write ℓ file) where
  lease _ h := isSome_write h
  runs _ h := .inl h
  marker _ _ h := .inl h

/-- **A turn keeps the bodies**, but for the collection of one. -/
theorem processTurn_keepsBodies (h : ProcessOk pool root p process)
    (hplace : ∀ ℓ, process.place ≠ .rmtree ℓ) :
    KeepsBodies root (processTurn pool a p process root).1 := by
  obtain ⟨place, repo, state, token, slot⟩ := process
  cases place with
  | rmtree ℓ => exact absurd rfl (hplace ℓ)
  | create =>
    refine ⟨fun ℓ hℓ => isSome_write hℓ, fun ℓ hℓ => ?_, fun _ _ hm => .inl hm⟩
    rcases List.mem_append.mp hℓ with hmem | hmem
    · exact .inl hmem
    · rw [List.mem_singleton.mp hmem]
      refine .inr ?_
      show ((root.write p state).lease p).isSome = true
      rw [write_self]
      rfl
  | mark =>
    cases slot with
    | none => exact .of_eq rfl rfl rfl
    | some slot =>
      refine ⟨fun _ hℓ => hℓ, fun _ hℓ => .inl hℓ, fun slot' ℓ hmarker => ?_⟩
      by_cases hs : slot' = slot
      · obtain ⟨file, hfile, _⟩ := (h.current trivial).file
        subst hs
        have hself : (root.mark slot' (.leased p)).marker slot' = some (.leased ℓ) := hmarker
        rw [mark_self, Option.some.injEq, Marker.leased.injEq] at hself
        subst hself
        exact .inr (Option.isSome_iff_exists.mpr ⟨file, hfile⟩)
      · exact .inl ((mark_of_ne hs).symm.trans hmarker)
  | grant => exact .write
  | running => exact .write
  | work => exact .write
  | releaseUnadmitted => exact .write
  | markReleased ℓ file after => exact .write
  | freeMarker ℓ file after =>
    unfold processTurn Root.freeSlotMarker
    dsimp only
    split
    · exact .of_eq rfl rfl rfl
    · rename_i slot _
      split
      · refine ⟨fun _ hℓ => hℓ, fun _ hℓ => .inl hℓ, fun slot' ℓ' hmarker => ?_⟩
        by_cases hs : slot' = slot
        · subst hs
          have hself : (root.mark slot' .free).marker slot' = some (.leased ℓ') := hmarker
          rw [mark_self] at hself
          cases hself
        · exact .inl ((mark_of_ne hs).symm.trans hmarker)
      · exact .of_eq rfl rfl rfl
  | drain ℓ =>
    simp only [processTurn, drainTurn, endRelease]
    repeat' split
    all_goals first
      | exact .of_eq rfl rfl rfl
      | exact ⟨fun _ hℓ => isSome_write hℓ, fun _ hℓ => .inl hℓ, fun _ _ hm => .inl hm⟩
  | clear ℓ =>
    unfold processTurn clearTurn
    dsimp only
    split
    · exact .of_eq rfl rfl rfl
    · exact .write
  | settle ℓ ok =>
    simp only [processTurn, settleTurn, endRelease]
    repeat' split
    all_goals first
      | exact .of_eq rfl rfl rfl
      | exact .write
  | reclaim health todo =>
    cases todo with
    | nil =>
      cases health with
      | true => exact .of_eq rfl rfl rfl
      | false => exact .of_eq rfl rfl rfl
    | cons m todo =>
      unfold processTurn reclaimTurn
      dsimp only
      repeat' split
      all_goals exact .of_eq rfl rfl rfl
  | scan count found todo =>
    cases todo with
    | nil => exact .of_eq rfl rfl rfl
    | cons m todo =>
      unfold processTurn scanTurn
      dsimp only
      repeat' split
      all_goals exact .of_eq rfl rfl rfl
  | closeToken =>
    cases token with
    | none => exact .of_eq rfl rfl rfl
    | some token => exact .of_eq rfl rfl rfl
  | _ =>
    simp only [processTurn, takeTurn, slotTurn, endRelease]
    repeat' split
    all_goals exact .of_eq rfl rfl rfl

/-- **A body is collected** that no marker names. -/
theorem KeptBodies.rmtree (h : KeptBodies root) (hs : SoundRoot pool root)
    (hplace : process.place = .rmtree ℓ) (hok : a.ok = true)
    (hnamed : ∀ slot, root.marker slot ≠ some (.leased ℓ)) :
    KeptBodies (processTurn pool a p process root).1 := by
  have hother : ∀ {m}, m ≠ ℓ → (root.lease m).isSome →
      (Function.update root.lease ℓ none m).isSome := by
    intro m hne hm
    rw [Function.update_of_ne hne]
    exact hm
  unfold processTurn
  rw [hplace]
  dsimp only
  rw [if_pos hok]
  refine ⟨fun m hm => ?_, fun slot m hm => hother ?_ (h.named slot m hm)⟩
  · obtain ⟨hne, hmem⟩ := (hs.nodup.mem_erase_iff).mp hm
    exact hother hne (h.present m hmem)
  · rintro rfl
    exact hnamed slot hm

/-- **A step that heeds what may be lost** keeps the bodies. -/
theorem rootStep_keepsBodies {s : RootState} (action : RootAction) (h : SoundAdmission pool s)
    (hkept : KeptBodies s.shared) (hheeds : rootHeeds s action) :
    KeptBodies (rootStep pool s action).shared := by
  cases action with
  | call p request =>
    unfold rootStep
    dsimp only
    split
    · exact hkept
    · exact hkept
  | turn p a =>
    show KeptBodies (processTurn pool a p (s.place p) s.shared).1
    by_cases hplace : ∃ ℓ, (s.place p).place = .rmtree ℓ
    · obtain ⟨ℓ, hplace⟩ := hplace
      unfold rootHeeds at hheeds
      dsimp only at hheeds
      rw [hplace] at hheeds
      exact hkept.rmtree h.inv hplace hheeds.1 hheeds.2
    · exact hkept.keep (processTurn_keepsBodies (h.ok p) fun ℓ heq => hplace ⟨ℓ, heq⟩)
  | kill p =>
    unfold rootStep
    dsimp only
    split
    · exact hkept.keep (.of_eq rfl rfl rfl)
    · exact hkept

/-- **Once all is over** every token index and every slot can be granted again. -/
theorem reusable_of_released {s : RootState} (h : SoundAdmission pool s)
    (hkept : KeptBodies s.shared) (hover : AllReleased s) : Reusable s.shared := by
  have hout : ∀ p, ¬ (s.place p).place.locked ∧ ¬ (s.place p).place.holds p := by
    intro p
    rcases hover.gone p with hplace | hplace
    · rw [hplace]
      exact ⟨id, id⟩
    · rw [hplace]
      exact ⟨id, id⟩
  have hreleased : ∀ ℓ, (s.shared.lease ℓ).isSome →
      ∃ file, s.shared.lease ℓ = some file ∧ file.status = .released := by
    intro ℓ hsome
    obtain ⟨file, hfile⟩ := Option.isSome_iff_exists.mp hsome
    exact ⟨file, hfile, hover.released ℓ (h.inv.runs ℓ file hfile) file hfile⟩
  refine ⟨?_, fun index => ?_, fun ℓ hℓ => hreleased ℓ (hkept.present ℓ hℓ), fun slot => ⟨?_, ?_⟩⟩
  · cases hlock : s.shared.queueLock with
    | none => rfl
    | some p => exact absurd ((h.ok p).queue.mp hlock) (hout p).1
  · cases hlock : s.shared.token index with
    | none => rfl
    | some p =>
      have hmine := ((h.ok p).token index).mp hlock
      rw [((h.ok p).free (hout p).2).1] at hmine
      cases hmine
  · cases hlock : s.shared.slotLock slot with
    | none => rfl
    | some p =>
      have hmine := ((h.ok p).slotLock slot).mp hlock
      rw [((h.ok p).free (hout p).2).2] at hmine
      cases hmine
  · unfold Root.usable
    cases hmarker : s.shared.marker slot with
    | none => rfl
    | some marker =>
      cases marker with
      | free => rfl
      | leased ℓ =>
        obtain ⟨file, hfile, hstatus⟩ := hreleased ℓ (hkept.named slot ℓ hmarker)
        dsimp only
        rw [hfile]
        exact decide_eq_true hstatus

end Bodies

/-! ### Every run -/

/-- **Admission is exclusive in every run, and leaks nothing** in those in which a body is collected
only where no marker names it. -/
theorem admission_exclusive (pool : ℕ) (actions : List RootAction) :
    AdmissionSafe pool (Machine.run (rootStep pool) RootState.start actions).shared ∧
      Machine.Meets (rootStep pool) (AdmissionStepSafe pool) RootState.start actions ∧
      (Machine.Meets (rootStep pool) rootHeeds RootState.start actions →
        AllReleased (Machine.run (rootStep pool) RootState.start actions) →
          Reusable (Machine.run (rootStep pool) RootState.start actions).shared) := by
  have hsound := soundAdmission_run pool actions
  refine ⟨hsound.inv.safe, ?_, fun hheeds hover => ?_⟩
  · exact @Machine.meets_of_preserved _ _ (rootStep pool) _ (fun _ => True)
      (fun s action _ => ⟨trivial, rootStep_safe s action⟩) _ _ trivial
  · have hkept := @Machine.run_invariant_of_meets _ _ (rootStep pool) rootHeeds
      (fun s => SoundAdmission pool s ∧ KeptBodies s.shared)
      (fun _ action h hh => ⟨rootStep_keeps action h.1, rootStep_keepsBodies action h.1 h.2 hh⟩)
      _ _ ⟨soundAdmission_start pool, ⟨nofun, nofun⟩⟩ hheeds
    exact reusable_of_released hsound hkept.2 hover

/-! ### A slot that is lost -/

/-- Whose step it is. -/
def RootAction.process : RootAction → ℕ
  | .call p _ => p
  | .turn p _ => p
  | .kill p => p

theorem place_of_not_process {pool q : ℕ} {s : RootState} {actions : List RootAction}
    (h : ∀ action ∈ actions, action.process ≠ q) :
    (Machine.run (rootStep pool) s actions).place q = s.place q := by
  induction actions generalizing s with
  | nil => rfl
  | cons action actions ih =>
    rw [Machine.run_cons, ih fun b hb => h b (List.mem_cons_of_mem _ hb)]
    have hne : q ≠ action.process := (h action List.mem_cons_self).symm
    cases action with
    | call p request =>
      unfold rootStep
      dsimp only
      split
      · exact s.turn_place_of_ne hne _
      · rfl
    | turn p a => exact s.turn_place_of_ne hne _
    | kill p =>
      unfold rootStep
      dsimp only
      split
      · exact s.turn_place_of_ne hne _
      · rfl

/-- The step collects no body. -/
def RootAction.collectsNone (s : RootState) : RootAction → Bool
  | .turn p _ =>
    match (s.place p).place with
    | .rmtree _ => false
    | _ => true
  | _ => true

theorem rootHeeds_of_collectsNone {s : RootState} {action : RootAction}
    (h : action.collectsNone s = true) : rootHeeds s action := by
  unfold rootHeeds
  split
  · rename_i p a
    split
    · rename_i lease hplace
      unfold RootAction.collectsNone at h
      dsimp only at h
      rw [hplace] at h
      cases h
    · trivial
  · trivial

/-- A process takes turns that succeed. -/
def rootTurns (p n : ℕ) : List RootAction :=
  List.replicate n (.turn p ⟨true, true, true, false, 1, false⟩)

/-- A holder is killed once its slot is marked, and before its lease says so.  The lease is
cleared. -/
def clearedRun : List RootAction :=
  .call 0 (.enqueue "flight") :: rootTurns 0 13 ++ [.kill 0, .call 1 (.finish 0)] ++ rootTurns 1 9

/-- Then its body is collected. -/
def collectedRun : List RootAction := clearedRun ++ .call 2 (.collect 0) :: rootTurns 2 2

theorem admission_exclusive_cleared :
    Reusable (Machine.run (rootStep 1) RootState.start clearedRun).shared := by
  refine (admission_exclusive 1 clearedRun).2.2 ?_ ⟨fun p => ?_, by decide +kernel⟩
  · exact @Machine.meets_of_invariant _ _ (rootStep 1) (fun s action => action.collectsNone s = true)
      _ (fun _ => True) (fun _ _ _ h => ⟨trivial, rootHeeds_of_collectsNone h⟩) _ _ trivial
      (by decide +kernel)
  · match p with
    | 0 => exact .inr (by decide +kernel)
    | 1 => exact .inr (by decide +kernel)
    | n + 2 =>
      have hprocess : ∀ action ∈ clearedRun, action.process < 2 := by decide +kernel
      rw [place_of_not_process fun action hmem => Nat.ne_of_lt (by have := hprocess action hmem; omega)]
      exact .inl rfl

/-- **The slot can not be granted again**: its marker names a run directory that is gone. -/
theorem collected_slot_lost :
    ¬ (AllReleased (Machine.run (rootStep 1) RootState.start collectedRun) →
      Reusable (Machine.run (rootStep 1) RootState.start collectedRun).shared) := by
  intro h
  have hreusable := h ⟨fun p => ?_, by decide +kernel⟩
  · have husable := (hreusable.slot ⟨"flight", 0⟩).2
    revert husable
    decide +kernel
  · match p with
    | 0 => exact .inr (by decide +kernel)
    | 1 => exact .inr (by decide +kernel)
    | 2 => exact .inr (by decide +kernel)
    | n + 3 =>
      have hprocess : ∀ action ∈ collectedRun, action.process < 3 := by decide +kernel
      rw [place_of_not_process fun action hmem => Nat.ne_of_lt (by have := hprocess action hmem; omega)]
      exact .inl rfl

end GoalFlight.RemoteCi
