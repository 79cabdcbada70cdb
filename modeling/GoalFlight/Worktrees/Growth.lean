import Mathlib.Data.List.Perm.Subperm
import GoalFlight.Worktrees.Stranded

/-!
# Worktrees: the ring grows within its limit

While the allocation lock is held no other allocator claims a seat or writes the high-water mark.
`SoundPool` says what the holder then knows: its high-water mark is the persisted one, and every
seat that is held has been counted, or has still to be looked at, or is the one it asks for.

An allocator that was refused a seat goes on with what it had found before.  `Fits`: it claims a
seat while fewer than the limit are held, and the high-water mark that it writes is not below the
persisted one.
-/

namespace GoalFlight.Worktrees

variable {seat : Seat} {name : SeatName} {slot : ℕ} {label : PoolLabel}

/-! ### Held seats -/

/-- The pool seats that are held. -/
def Pool.heldSeats (ring : Ring) (s : Pool) : List SeatName :=
  (ring.candidates.filter fun name => (s.seat name).holder.isSome).dedup

/-- **A step that fits**: an allocator that has taken the allocation lock again claims a seat only
while there is room, and does not write the high-water mark back. -/
def Fits (ring : Ring) : PoolLabel → Pool → Prop
  | .claim true, s => (s.heldSeats ring).length < ring.seatLimit
  | .advance true hwm, s => s.hwm ≤ hwm + 1
  | _, _ => True

instance (ring : Ring) (label : PoolLabel) (s : Pool) : Decidable (Fits ring label s) := by
  unfold Fits
  split <;> infer_instance

variable {ring : Ring}

theorem mem_heldSeats {s : Pool} :
    name ∈ s.heldSeats ring ↔ name ∈ ring.candidates ∧ (s.seat name).holder ≠ none := by
  unfold Pool.heldSeats
  rw [List.mem_dedup, List.mem_filter, Option.isSome_iff_ne_none]

theorem heldSeats_length_le {s : Pool} {names : List SeatName}
    (h : ∀ name ∈ s.heldSeats ring, name ∈ names) : (s.heldSeats ring).length ≤ names.length :=
  ((List.nodup_dedup _).subperm h).length_le

theorem captive_mem_candidates :
    SeatName.captive slot ∈ ring.candidates ↔ 1 ≤ slot ∧ slot ≤ ring.seatLimit := by
  unfold Ring.candidates Ring.legacy
  simp only [List.mem_append, List.mem_map, List.mem_range, SeatName.captive.injEq, reduceCtorEq,
    and_false, exists_false, or_false]
  constructor
  · rintro ⟨index, hindex, rfl⟩
    omega
  · intro hslot
    exact ⟨slot - 1, by omega, by omega⟩

theorem legacy_mem_candidates (h : name ∈ ring.legacy) :
    name ∈ ring.candidates := List.mem_append_right _ h

theorem captive_notMem_legacy (slot : ℕ) : SeatName.captive slot ∉ ring.legacy := by
  unfold Ring.legacy
  simp

/-! ### What the holder of the allocation lock knows -/

/-- What an allocation has found is true of the pool. -/
structure SoundAllocation (s : Pool) (t : Allocation) : Prop where
  hwm_eq : t.admitted = true → t.stale = false → t.hwm = s.hwm
  counted : t.stale = false → ∀ name, (s.seat name).holder ≠ none →
    name ∈ t.capacityOccupants ∨ name ∈ t.unprobed ∨ t.target = some name

/-- **A sound pool**: the ring is within its limit, the seats in use are its own, and the holder
of the allocation lock knows them. -/
structure SoundPool (ring : Ring) (s : Pool) : Prop where
  hwm_le : s.hwm ≤ ring.seatLimit
  /-- A seat in use is a candidate of every later allocation. -/
  candidate : ∀ name, (s.seat name).holder ≠ none ∨ (s.seat name).checkout = true →
    name ∈ ring.candidates
  inRing : ∀ slot, (s.seat (.captive slot)).holder ≠ none ∨
    (s.seat (.captive slot)).checkout = true → slot ≤ s.hwm
  locked : ∀ name, (s.seat name).holder ≠ none → (s.seat name).lockFile = true
  made : ∀ slot, (s.seat (.captive slot)).checkout = true → slot ∈ s.created
  created : ∀ slot ∈ s.created, 1 ≤ slot ∧ slot ≤ s.hwm
  within : (s.heldSeats ring).length ≤ ring.seatLimit
  allocation : ∀ t, s.allocation = some t → SoundAllocation s t
  behind : ∀ t, s.allocation = some t ∨ t ∈ s.waiting → t.hwm ≤ s.hwm

namespace SoundPool

variable {s s' : Pool} {t : Allocation}

theorem initial (ring : Ring) : SoundPool ring (Pool.initial ring) where
  hwm_le := Nat.zero_le _
  candidate name h := by
    unfold Pool.initial at h
    simp only at h
    split at h
    · rename_i hlegacy
      exact legacy_mem_candidates hlegacy
    · simp [Seat.unused] at h
  inRing slot h := by
    simp [Pool.initial, captive_notMem_legacy, Seat.unused] at h
  locked name h := by
    unfold Pool.initial at h ⊢
    simp only at h ⊢
    split at h <;> exact absurd rfl h
  made slot h := by
    simp [Pool.initial, captive_notMem_legacy, Seat.unused] at h
  created slot h := absurd h List.not_mem_nil
  within := by
    have hnone : ∀ name ∈ (Pool.initial ring).heldSeats ring, name ∈ ([] : List SeatName) := by
      intro name hname
      have hheld := (mem_heldSeats.mp hname).2
      unfold Pool.initial at hheld
      simp only at hheld
      split at hheld <;> exact absurd rfl hheld
    exact Nat.le_trans (heldSeats_length_le hnone) (Nat.zero_le _)
  allocation t h := by cases h
  behind t h := by
    rcases h with h | h
    · cases h
    · cases h

end SoundPool

theorem SoundAllocation.mono {s s' : Pool} {t : Allocation} (h : SoundAllocation s t)
    (hhwm : s'.hwm = s.hwm)
    (hheld : ∀ name, (s'.seat name).holder ≠ none → (s.seat name).holder ≠ none) :
    SoundAllocation s' t where
  hwm_eq hadmitted hstale := hhwm ▸ h.hwm_eq hadmitted hstale
  counted hstale name hname := h.counted hstale name (hheld name hname)

/-- **Nothing is taken**: no seat is held that was not, a checkout is there only of a seat that
was in use, and the high-water mark is the same. -/
structure Spares (s s' : Pool) : Prop where
  hwm : s'.hwm = s.hwm
  held : ∀ name, (s'.seat name).holder ≠ none → (s.seat name).holder ≠ none
  used : ∀ name, (s'.seat name).checkout = true →
    (s.seat name).holder ≠ none ∨ (s.seat name).checkout = true
  locked : ∀ name, (s.seat name).lockFile = true → (s'.seat name).lockFile = true
  made : ∀ slot, (s'.seat (.captive slot)).checkout = true →
    (s.seat (.captive slot)).checkout = true ∨ slot ∈ s'.created
  created : ∀ slot, slot ∈ s.created → slot ∈ s'.created
  createdHeld : ∀ slot ∈ s'.created, slot ∈ s.created ∨ (s.seat (.captive slot)).holder ≠ none

namespace Spares

variable {s s' : Pool}

theorem of_seat (hseat : s'.seat = s.seat) (hhwm : s'.hwm = s.hwm)
    (hcreated : s'.created = s.created) : Spares s s' where
  hwm := hhwm
  held name := by rw [hseat]; exact id
  used name := by rw [hseat]; exact .inr
  locked name := by rw [hseat]; exact id
  made slot := by rw [hseat]; exact .inl
  created slot := by rw [hcreated]; exact id
  createdHeld slot := by rw [hcreated]; exact .inl

theorem of_setSeat (hheld : seat.holder ≠ none → (s.seat name).holder ≠ none)
    (hcheckout : seat.checkout = true → (s.seat name).checkout = true)
    (hlock : (s.seat name).lockFile = true → seat.lockFile = true) :
    Spares s (s.setSeat name seat) where
  hwm := rfl
  held other := by
    by_cases hother : other = name
    · subst hother
      simpa [Pool.setSeat] using hheld
    · simp [Pool.setSeat, hother]
  used other := by
    by_cases hother : other = name
    · subst hother
      simpa [Pool.setSeat] using fun h => .inr (hcheckout h)
    · simpa [Pool.setSeat, hother] using .inr
  locked other := by
    by_cases hother : other = name
    · subst hother
      simpa [Pool.setSeat] using hlock
    · simp [Pool.setSeat, hother]
  made slot := by
    by_cases hother : SeatName.captive slot = name
    · subst hother
      simpa [Pool.setSeat] using fun h => .inl (hcheckout h)
    · simpa [Pool.setSeat, hother] using .inl
  created slot := id
  createdHeld slot := .inl

theorem allocated (h : Spares s s') (allocation : Option Allocation) :
    Spares s { s' with allocation := allocation } :=
  ⟨h.hwm, h.held, h.used, h.locked, h.made, h.created, h.createdHeld⟩

end Spares

namespace SoundPool

variable {s s' : Pool} {t : Allocation}

/-- A pool of which nothing is taken stays sound, if what the allocations have found is true. -/
theorem spared (h : SoundPool ring s) (hspares : Spares s s')
    (hallocation : ∀ t, s'.allocation = some t → SoundAllocation s' t)
    (hbehind : ∀ t, s'.allocation = some t ∨ t ∈ s'.waiting → t.hwm ≤ s.hwm) :
    SoundPool ring s' where
  hwm_le := hspares.hwm ▸ h.hwm_le
  candidate name hname :=
    h.candidate name (hname.elim (fun hheld => .inl (hspares.held name hheld)) (hspares.used name))
  inRing slot hslot := hspares.hwm ▸
    h.inRing slot (hslot.elim (fun hheld => .inl (hspares.held _ hheld)) (hspares.used _))
  locked name hheld := hspares.locked name (h.locked name (hspares.held name hheld))
  made slot hthere :=
    (hspares.made slot hthere).elim (fun hold => hspares.created slot (h.made slot hold)) id
  created slot hslot := by
    rcases hspares.createdHeld slot hslot with hold | hheld
    · exact hspares.hwm ▸ h.created slot hold
    · exact ⟨(captive_mem_candidates.mp (h.candidate _ (.inl hheld))).1,
        hspares.hwm ▸ h.inRing slot (.inl hheld)⟩
  within := by
    refine Nat.le_trans (heldSeats_length_le fun name hname => ?_) h.within
    obtain ⟨hmem, hheld⟩ := mem_heldSeats.mp hname
    exact mem_heldSeats.mpr ⟨hmem, hspares.held name hheld⟩
  allocation := hallocation
  behind t ht := hspares.hwm ▸ hbehind t ht

theorem spared_same (h : SoundPool ring s) (hspares : Spares s s')
    (hallocation : s'.allocation = s.allocation) (hwaiting : s'.waiting = s.waiting) :
    SoundPool ring s' := by
  refine h.spared hspares (fun t ht => ?_) fun t ht => ?_
  · exact (h.allocation t (hallocation ▸ ht)).mono hspares.hwm hspares.held
  · rw [hallocation, hwaiting] at ht
    exact h.behind t ht

theorem allocated (h : SoundPool ring s) {next : ℕ} (ht : SoundAllocation s t)
    (hhwm : t.hwm ≤ s.hwm) : SoundPool ring { s with allocation := some t, next := next } := by
  refine h.spared (.of_seat rfl rfl rfl) ?_ ?_
  · rintro t' ht'
    cases ht'
    exact ⟨ht.hwm_eq, ht.counted⟩
  · rintro t' (ht' | ht')
    · cases ht'
      exact hhwm
    · exact h.behind t' (.inr ht')

theorem begun (h : SoundPool ring s) (target : Option SeatName) :
    SoundPool ring
      { s with allocation := some (s.begin target (ring.others target)), next := s.next + 1 } := by
  refine h.allocated ⟨fun hadmitted => (Bool.false_ne_true hadmitted).elim,
    fun _ name hheld => .inr ?_⟩ (Nat.zero_le _)
  by_cases htarget : target = some name
  · exact .inr htarget
  · refine .inl (List.mem_filter.mpr ⟨h.candidate name (.inl hheld), ?_⟩)
    simpa using htarget

theorem countsAsOccupied_of_held (hlock : seat.lockFile = true) (hheld : seat.holder ≠ none)
    (w : PoolAnswer) : seat.countsAsOccupied w = true := by
  have hsome : seat.holder.isSome = true := Option.isSome_iff_ne_none.mpr hheld
  unfold Seat.countsAsOccupied
  repeat' split
  all_goals simp_all

theorem mem_noteOccupant {other : SeatName} {occupants : List SeatName} :
    other ∈ noteOccupant name occupants ↔ other ∈ occupants ∨ other = name := by
  unfold noteOccupant
  split
  · rename_i hmem
    exact ⟨.inl, fun h => h.elim id fun heq => heq ▸ hmem⟩
  · simp

section

variable (h : SoundPool ring s)
include h

theorem probed {rest : List SeatName} (w : PoolAnswer) (ht : s.allocation = some t)
    (hbusy : t.admitted = false) (hlist : t.unprobed = name :: rest) :
    SoundPool ring
      { s with allocation := some (t.probed name rest ((s.seat name).countsAsOccupied w)) } := by
  refine h.allocated ⟨fun hadmitted => ?_, fun hstale other hheld => ?_⟩ (h.behind t (.inl ht))
  · rw [show (t.probed name rest _).admitted = t.admitted from rfl, hbusy] at hadmitted
    cases hadmitted
  · have hkept : other ∈ t.capacityOccupants →
        other ∈ (t.probed name rest ((s.seat name).countsAsOccupied w)).capacityOccupants := by
      intro hmem
      unfold Allocation.probed
      simp only
      split
      · exact mem_noteOccupant.mpr (.inl hmem)
      · exact hmem
    rcases (h.allocation t ht).counted hstale other hheld with hmem | hmem | htarget
    · exact .inl (hkept hmem)
    · rw [hlist] at hmem
      rcases List.mem_cons.mp hmem with rfl | hrest
      · refine .inl ?_
        have hcounts := countsAsOccupied_of_held (h.locked other hheld) hheld w
        simp only [Allocation.probed, hcounts, if_true]
        exact mem_noteOccupant.mpr (.inr rfl)
      · exact .inr (.inl hrest)
    · exact .inr (.inr htarget)

theorem admitted (ht : s.allocation = some t) :
    SoundPool ring { s with allocation := some (t.counted (min s.hwm ring.seatLimit)) } :=
  h.allocated ⟨fun _ _ => Nat.min_eq_left h.hwm_le, (h.allocation t ht).counted⟩
    (Nat.min_le_left _ _)

theorem released : SoundPool ring { s with allocation := none } := by
  refine h.spared (.of_seat rfl rfl rfl) ?_ ?_
  · rintro t ht
    cases ht
  · rintro t (ht | ht)
    · cases ht
    · exact h.behind t (.inr ht)

theorem looked {allocation : Option Allocation} (ht : s.allocation = some t)
    (hseat : (s.seat name).Looked seat)
    (hafter : allocation = some t ∨ allocation = some (t.note name) ∨ allocation = none) :
    SoundPool ring { s.setSeat name seat with allocation := allocation } := by
  have hspares : Spares s { s.setSeat name seat with allocation := allocation } :=
    (Spares.of_setSeat (fun hheld => hseat.holder ▸ hheld)
      (fun hthere => hseat.checkout ▸ hthere) hseat.lockFile).allocated allocation
  have hfound := (h.allocation t ht).mono hspares.hwm hspares.held
  have hhwm := h.behind t (.inl ht)
  refine h.spared hspares (fun t' ht' => ?_) fun t' ht' => ?_
  · change allocation = some t' at ht'
    rcases hafter with rfl | rfl | rfl <;> cases ht'
    · exact hfound
    · exact ⟨hfound.hwm_eq, hfound.counted⟩
  · rcases ht' with ht' | ht'
    · change allocation = some t' at ht'
      rcases hafter with rfl | rfl | rfl <;> cases ht' <;> exact hhwm
    · exact h.behind t' (.inr ht')

theorem retaken (name : SeatName) (refused : Bool) (ht : t ∈ s.waiting) :
    SoundPool ring { s with allocation := some (t.retaken name refused) } :=
  h.allocated ⟨fun _ hstale => (Bool.false_ne_true hstale.symm).elim,
    fun hstale => (Bool.false_ne_true hstale.symm).elim⟩
    (h.behind t (.inr ht))

section

variable (ht : s.allocation = some t)
include ht

theorem candidate_of_tries (htries : t.Tries ring name)
    (hpresent : t.target ≠ none → (s.seat name).checkout = true) :
    name ∈ ring.candidates ∧ ∀ slot, name = .captive slot → slot ≤ s.hwm := by
  unfold Allocation.Tries at htries
  split at htries
  · rename_i target htarget
    have hused := hpresent (by rw [htarget]; exact Option.some_ne_none _)
    refine ⟨h.candidate name (.inr hused), ?_⟩
    rintro slot rfl
    exact h.inRing slot (.inr hused)
  · have hhwm := h.behind t (.inl ht)
    have hlimit := h.hwm_le
    rcases htries with hlegacy | ⟨slot, rfl, hpos, hslot⟩
    · refine ⟨legacy_mem_candidates hlegacy, ?_⟩
      rintro slot rfl
      exact absurd hlegacy (captive_notMem_legacy slot)
    · refine ⟨captive_mem_candidates.mpr ⟨hpos, by omega⟩, ?_⟩
      rintro slot' hslot'
      cases hslot'
      omega

/-- While an allocation's findings are true there is room for the seat that it claims. -/
theorem room (hadmitted : t.Admitted ring) (htries : t.Tries ring name)
    (hfree : (s.seat name).holder = none) (hfits : Fits ring (.claim t.stale) s) :
    (s.heldSeats ring).length < ring.seatLimit := by
  cases hstale : t.stale with
  | true =>
    rw [hstale] at hfits
    exact hfits
  | false =>
    refine Nat.lt_of_le_of_lt (heldSeats_length_le fun other hother => ?_) hadmitted.room
    have hheld := (mem_heldSeats.mp hother).2
    rcases (h.allocation t ht).counted hstale other hheld with hmem | hmem | htarget
    · exact hmem
    · rw [hadmitted.unprobed] at hmem
      cases hmem
    · -- the seat it asks for is the one it claims, and that was free
      unfold Allocation.Tries at htries
      rw [htarget] at htries
      exact absurd (htries ▸ hfree) hheld

theorem claimed (hadmitted : t.Admitted ring) (htries : t.Tries ring name)
    (hseat : Claimable t (s.seat name) seat) (hfits : Fits ring (.claim t.stale) s) :
    SoundPool ring (s.claim t name seat) := by
  obtain ⟨hcandidate, hslot⟩ := h.candidate_of_tries ht htries hseat.present
  have hroom := h.room ht hadmitted htries hseat.free hfits
  have hself : (s.claim t name seat).seat name = { seat with holder := some ⟨s.next, false⟩ } := by
    simp [Pool.claim, Pool.setSeat]
  have hother : ∀ other, other ≠ name → (s.claim t name seat).seat other = s.seat other := by
    intro other hne
    simp [Pool.claim, Pool.setSeat, hne]
  have hcheckout : ∀ other, ((s.claim t name seat).seat other).checkout = true →
      (s.seat other).checkout = true := by
    intro other hthere
    by_cases hne : other = name
    · subst hne
      rw [hself, hseat.adopted] at hthere
      exact hthere
    · rwa [hother other hne] at hthere
  have hused : ∀ other, ((s.claim t name seat).seat other).holder ≠ none ∨
      ((s.claim t name seat).seat other).checkout = true →
      other = name ∨ (s.seat other).holder ≠ none ∨ (s.seat other).checkout = true := by
    intro other h'
    by_cases hne : other = name
    · exact .inl hne
    · rw [hother other hne] at h'
      exact .inr h'
  exact {
    hwm_le := h.hwm_le
    candidate := fun other h' => (hused other h').elim (fun heq => heq ▸ hcandidate)
      (h.candidate other)
    inRing := fun slot h' => (hused _ h').elim (fun heq => hslot slot heq.symm) (h.inRing slot)
    locked := by
      intro other hheld
      by_cases hne : other = name
      · subst hne
        rw [hself, hseat.adopted]
        rfl
      · rw [hother other hne] at hheld ⊢
        exact h.locked other hheld
    made := fun slot hthere => h.made slot (hcheckout _ hthere)
    created := h.created
    within := by
      have hmem : ∀ other ∈ (s.claim t name seat).heldSeats ring,
          other ∈ name :: s.heldSeats ring := by
        intro other hother'
        obtain ⟨hcand, hheld⟩ := mem_heldSeats.mp hother'
        by_cases hne : other = name
        · exact hne ▸ List.mem_cons_self
        · rw [hother other hne] at hheld
          exact List.mem_cons_of_mem _ (mem_heldSeats.mpr ⟨hcand, hheld⟩)
      exact Nat.le_trans (heldSeats_length_le hmem) hroom
    allocation := fun t' ht' => by cases ht'
    behind := by
      rintro t' (ht' | ht')
      · cases ht'
      · rcases List.mem_cons.mp ht' with rfl | hmem
        · exact h.behind t' (.inl ht)
        · exact h.behind t' (.inr hmem) }

theorem hwm_le_advanced (hadmitted : t.Admitted ring)
    (hfits : Fits ring (.advance t.stale t.hwm) s) :
    s.hwm ≤ t.hwm + 1 := by
  cases hstale : t.stale with
  | true =>
    rw [hstale] at hfits
    exact hfits
  | false =>
    have heq := (h.allocation t ht).hwm_eq hadmitted.admitted hstale
    omega

theorem advanced (hadmitted : t.Admitted ring) (hroom : t.hwm < ring.seatLimit)
    (hfits : Fits ring (.advance t.stale t.hwm) s) :
    SoundPool ring
      { s with hwm := t.hwm + 1, allocation := some { t with hwm := t.hwm + 1 } } := by
  have hgrows := h.hwm_le_advanced ht hadmitted hfits
  exact {
    hwm_le := hroom
    candidate := h.candidate
    inRing := fun slot hslot => Nat.le_trans (h.inRing slot hslot) hgrows
    locked := h.locked
    made := h.made
    created := fun slot hslot =>
      ⟨(h.created slot hslot).1, Nat.le_trans (h.created slot hslot).2 hgrows⟩
    within := h.within
    allocation := by
      rintro t' ht'
      cases ht'
      exact ⟨fun _ _ => rfl, (h.allocation t ht).counted⟩
    behind := by
      rintro t' (ht' | ht')
      · cases ht'
        exact Nat.le_refl _
      · exact Nat.le_trans (h.behind t' (.inr ht')) hgrows }

end

end

theorem spares_prepare {id : ℕ} (hholds : s.Holds id name) (fresh : Bool)
    (preparation : Preparation) : Spares s (s.prepare id name fresh preparation) := by
  obtain ⟨holder, hholder, -⟩ := hholds
  have hheld : (s.seat name).holder ≠ none := hholder ▸ Option.some_ne_none _
  have hself : (s.prepare id name fresh preparation).seat name =
      (s.seat name).prepared id fresh preparation := by
    simp [Pool.prepare_seat, Pool.setSeat]
  have hother : ∀ other, other ≠ name →
      (s.prepare id name fresh preparation).seat other = s.seat other := by
    intro other hne
    simp [Pool.prepare_seat, Pool.setSeat, hne]
  exact {
    hwm := by
      unfold Pool.prepare
      simp only
      split
      · rw [Pool.noteCreated_hwm]
        rfl
      · rfl
    held := by
      intro other h'
      by_cases hne : other = name
      · exact hne ▸ hheld
      · rwa [hother other hne] at h'
    used := by
      intro other h'
      by_cases hne : other = name
      · exact .inl (hne ▸ hheld)
      · rw [hother other hne] at h'
        exact .inr h'
    locked := by
      intro other h'
      by_cases hne : other = name
      · subst hne
        rw [hself]
        cases preparation <;> exact h'
      · rwa [hother other hne]
    made := by
      intro slot h'
      by_cases hne : SeatName.captive slot = name
      · subst hne
        rw [hself] at h'
        by_cases hthere : (s.seat (.captive slot)).checkout = true
        · exact .inl hthere
        · refine .inr ?_
          have hmakes : preparation.makes = true := by
            cases preparation <;> simp_all [Seat.prepared, Preparation.makes]
          simp [Pool.prepare, hthere, hmakes, Pool.noteCreated]
      · rw [hother _ hne] at h'
        exact .inl h'
    created := by
      intro slot h'
      unfold Pool.prepare
      simp only
      split
      · cases name <;> simp [Pool.noteCreated, Pool.setSeat, h']
      · exact h'
    createdHeld := by
      intro slot h'
      unfold Pool.prepare at h'
      simp only at h'
      split at h'
      · cases name with
        | captive other =>
          rcases List.mem_cons.mp h' with rfl | hold
          · exact .inr hheld
          · exact .inl hold
        | legacy label other => exact .inl h'
      · exact .inl h' }

theorem spares_recorded {id : ℕ} (hholds : s.Holds id name) (dispatchId : String)
    (fresh : Bool) (recording : Recording) :
    Spares s (s.setSeat name ((s.seat name).recorded id dispatchId fresh recording)) := by
  obtain ⟨holder, hholder, -⟩ := hholds
  have hheld : (s.seat name).holder ≠ none := hholder ▸ Option.some_ne_none _
  refine .of_setSeat (fun _ => hheld) (fun hthere => ?_) (fun hlock => ?_)
  · cases recording with
    | written => exact hthere
    | lost residue removed => exact (Bool.and_eq_true_iff.mp hthere).1
  · cases recording <;> exact hlock

/-- **Step.**  A change that fits keeps the pool sound. -/
theorem change (h : SoundPool ring s) (hfits : Fits ring label s)
    (hchange : Change ring label s s') : SoundPool ring s' := by
  cases hchange with
  | same => exact h
  | begun target hfree => exact h.begun target
  | probed w ht hbusy hlist => exact h.probed w ht hbusy hlist
  | admitted ht hbusy hlist hroom => exact h.admitted ht
  | released => exact h.released
  | looked ht hadmitted hseat hafter => exact h.looked ht hseat hafter
  | claimed ht hadmitted htries hseat => exact h.claimed ht hadmitted htries hseat hfits
  | retaken name refused hfree ht => exact h.retaken name refused ht
  | advanced ht hadmitted hroom htarget => exact h.advanced ht hadmitted hroom hfits
  | prepared fresh preparation hholds =>
    refine h.spared_same (spares_prepare hholds fresh preparation) ?_ ?_
    · unfold Pool.prepare
      simp only
      split <;> simp [Pool.setSeat]
    · unfold Pool.prepare
      simp only
      split <;> simp [Pool.setSeat]
  | recorded dispatchId fresh recording hholds =>
    exact h.spared_same (spares_recorded hholds dispatchId fresh recording) rfl rfl
  | dropped _ name =>
    exact h.spared_same (Spares.of_setSeat (fun hheld => absurd rfl hheld) id id) rfl rfl
  | withdrawn _ name dispatchId live =>
    refine h.spared_same (Spares.of_setSeat ?_ ?_ ?_) rfl rfl <;>
      (unfold Seat.withdrawn; split <;> exact id)

theorem hwm_le_change (h : SoundPool ring s) (hfits : Fits ring label s)
    (hchange : Change ring label s s') : s.hwm ≤ s'.hwm := by
  cases hchange with
  | advanced ht hadmitted hroom htarget => exact h.hwm_le_advanced ht hadmitted hfits
  | prepared fresh preparation hholds => exact Nat.le_of_eq (spares_prepare hholds fresh preparation).hwm.symm
  | _ => exact Nat.le_refl _

theorem created_change (hchange : Change ring label s s') (hslot : slot ∈ s.created) :
    slot ∈ s'.created := by
  cases hchange with
  | prepared fresh preparation hholds =>
    exact (spares_prepare hholds fresh preparation).created slot hslot
  | _ => exact hslot

end SoundPool

/-! ### Runs -/

theorem mem_orderedSlots (exact : ℕ → Bool) {hwm : ℕ} (hpos : 1 ≤ slot) (hslot : slot ≤ hwm) :
    ∃ requireAncestor, (SeatName.captive slot, requireAncestor) ∈ orderedSlots exact hwm := by
  have hmem : slot ∈ (List.range hwm).map (· + 1) :=
    List.mem_map.mpr ⟨slot - 1, List.mem_range.mpr (by omega), by omega⟩
  refine ⟨false, ?_⟩
  unfold orderedSlots
  simp only [List.mem_append]
  by_cases hexact : exact slot = true
  · exact .inl (.inl (List.mem_map.mpr ⟨slot, List.mem_filter.mpr ⟨hmem, hexact⟩, rfl⟩))
  · exact .inr (List.mem_map.mpr ⟨slot, List.mem_filter.mpr ⟨hmem, by simpa using hexact⟩, rfl⟩)

/-- A process acquires a seat, and takes this many of its sections. -/
def acquireFor (p sections : ℕ) (dispatchId : String) : List PoolAction :=
  .call p (.acquire dispatchId true) :: List.replicate sections (.turn p .smooth)

/-- The reset of a claimed seat is refused. -/
def refuseReset (p : ℕ) : List PoolAction :=
  List.replicate 2 (.turn p { PoolAnswer.smooth with ready := false, refuses := true })

/-- `s-1` is there and free; an allocator claims it, and two others make `s-2` and `s-3` before
its reset is refused. -/
def ringOvertaken : List PoolAction :=
  acquireFor 0 11 "a" ++ [.call 0 (.drop (.captive 1)), .turn 0 .smooth] ++ acquireFor 0 6 "b" ++
    acquireFor 1 12 "c" ++ acquireFor 2 12 "d" ++ refuseReset 0

/-- An allocator claims the first of three trees, another the second; the first one is refused,
and a third allocator claims it. -/
def poolOvertaken : List PoolAction :=
  acquireFor 0 8 "a" ++ acquireFor 1 12 "b" ++ refuseReset 0 ++ acquireFor 2 12 "c"

end GoalFlight.Worktrees
