import GoalFlight.Tasks.Interrupted
import GoalFlight.Tasks.Minting

/-!
# Ids are minted once

What a turn of one process may change under the others is said once, in `Change`; a place in
a script stands for what its process has found out and holds, in `Phase`.  A number that is
about to be handed out is greater than its counter and than every number of the store, and
stays so: the counter needs the sequence lock, and what others publish meanwhile was handed
out before.

`minting_safe` has it for every interleaving: an id that is handed out is new, no generation
has an id twice, and the items of a generation are in every later one.
-/

namespace GoalFlight.Tasks

open Json Threads

variable {rest : Script} {g : Generation} {written : List Mapping}

/-! ### Ids of items -/

/-- The ids of items. -/
def ids (items : List Mapping) : List String := items.map idOf

theorem idOf_eq {item : Mapping} {id : String} (h : itemId? item = some id) : idOf item = id := by
  unfold itemId? at h
  split at h
  · rename_i s hs
    unfold idOf
    rw [hs]
    split at h
    · cases h
    · exact Option.some.inj h
  · cases h

theorem idOf_fillItemForWrite (item : Mapping) : idOf (fillItemForWrite item) = idOf item := by
  unfold idOf
  rw [get?_fillItemForWrite (by decide)]

theorem idOf_withId (id : String) (fields : Mapping) : idOf (withId id fields) = id := by
  unfold idOf withId
  rw [Mapping.get?_set]

theorem ids_validateItems {source : String} {lineno : ℕ} {seen : List (String × ℕ)}
    {items : List Mapping}
    (h : validateItems source lineno seen (items.map Mapping.document) = .ok written) :
    ids written = ids items ∧ (ids items).Nodup ∧ ∀ id ∈ ids items, seen.lookup id = none := by
  induction items generalizing lineno seen written with
  | nil =>
    cases h
    exact ⟨rfl, List.nodup_nil, nofun⟩
  | cons item rest ih =>
    rw [List.map_cons] at h
    obtain ⟨itemId, filled, more, hvalid, hmore, rfl⟩ := validateItems_cons_eq_ok h
    obtain ⟨hstored, hseen, original, hvalue, rfl⟩ := validateItemForWrite_eq_ok hvalid
    cases (mapping?_document item).symm.trans hvalue
    obtain ⟨hids, hnodup, hlookup⟩ := ih hmore
    have hid : idOf item = itemId := (idOf_fillItemForWrite item).symm.trans (idOf_eq hstored.id)
    have hrest : ∀ id ∈ ids rest, seen.lookup id = none ∧ id ≠ itemId := by
      intro id hmem
      have hnone := hlookup id hmem
      rw [List.lookup_append, Option.or_eq_none_iff] at hnone
      refine ⟨hnone.1, ?_⟩
      rintro rfl
      simp at hnone
    refine ⟨?_, ?_, ?_⟩
    · show idOf (fillItemForWrite item) :: ids more = idOf item :: ids rest
      rw [idOf_fillItemForWrite, hids]
    · show (idOf item :: ids rest).Nodup
      rw [hid, List.nodup_cons]
      exact ⟨fun hmem => (hrest itemId hmem).2 rfl, hnodup⟩
    · intro id hmem
      rcases List.mem_cons.mp hmem with rfl | hmem
      · rw [hid]
        exact hseen
      · exact (hrest id hmem).1

theorem ids_stageItems {w : StoreEnv} {items : List Mapping}
    (h : stageItems w (items.map Mapping.document) = .ok (written, g)) :
    ids written = ids items ∧ (ids items).Nodup := by
  obtain ⟨hids, hnodup, -⟩ := ids_validateItems (stageItems_eq_ok h).1
  exact ⟨hids, hnodup⟩

/-! ### The invariant of the store -/

namespace Shared

/-- **The invariant.** -/
structure Sound (s : Shared) : Prop where
  /-- What `tasks.jsonl` holds, if it can be read, is the last generation. -/
  file : ∀ data, s.store.file .tasks = some data → ∀ items, Holds data items → items = s.current
  absent : s.store.file .tasks = none → s.generations = []
  nodup : ∀ g ∈ s.generations, (ids g).Nodup
  grows : s.generations.Pairwise fun newer older => ids older ⊆ ids newer
  handed : s.handed.Nodup
  /-- An id that was handed out is counted, or published. -/
  bound : ∀ f n, mintedId f n ∈ s.handed → n ≤ s.seq f ∨ mintedId f n ∈ ids s.current

variable {s s' : Shared} {w : StoreEnv} {p q : ℕ}

theorem Sound.subset_current (h : s.Sound) {g : List Mapping} (hg : g ∈ s.generations) :
    ids g ⊆ ids s.current := by
  have hgrows := h.grows
  unfold current
  cases hgen : s.generations with
  | nil =>
    rw [hgen] at hg
    cases hg
  | cons newest older =>
    rw [hgen] at hg hgrows
    rcases List.mem_cons.mp hg with rfl | hg
    · exact List.Subset.refl _
    · exact List.rel_of_pairwise_cons hgrows hg

theorem Sound.loaded_eq (h : s.Sound) (hready : s.Ready) {items : List Mapping}
    (hloaded : s.loaded w = some items) : items = s.current := by
  unfold loaded loadItems readItems at hloaded
  cases htasks : s.store.file .tasks with
  | none =>
    have hlegacy : s.store.legacy = [] := hready.resolve_left (by rw [htasks]; decide)
    rw [htasks, hlegacy] at hloaded
    cases hloaded
    unfold current
    rw [h.absent htasks]
    rfl
  | some data =>
    rw [htasks] at hloaded
    simp only [Option.isSome_some, if_pos, Bool.false_eq_true, if_false] at hloaded
    cases hparse : parseJsonl "tasks.jsonl" (some data) with
    | error e =>
      rw [hparse] at hloaded
      cases hloaded
    | ok read =>
      rw [hparse] at hloaded
      cases hloaded
      exact h.file data htasks _ ⟨read.2, hparse⟩

/-- What a turn of a process may change under the others. -/
structure Change (s s' : Shared) (p : ℕ) : Prop where
  ready : s.Ready → s'.Ready
  storeLock : ∀ q, q ≠ p → s.storeLock = some q → s'.storeLock = some q
  seqLock : ∀ q, q ≠ p → s.seqLock = some q → s'.seqLock = some q
  current : s.storeLock ≠ some p → s'.current = s.current
  /-- What is published was handed out, or is an import's. -/
  added : s.Ready → ∀ id ∈ ids s'.current, id ∈ ids s.current ∨ id ∈ s.handed ∨ s.seqLock = some p
  seq : s.seqLock ≠ some p → s'.seq = s.seq ∧ s'.handed = s.handed
  handed : s.handed ⊆ s'.handed

/-- **The ids that a turn hands out are new**: they differ from each other, from every id that
was handed out and from every id of a generation. -/
def Fresh (s s' : Shared) : Prop :=
  ∃ new, s'.handed = new ++ s.handed ∧ new.Nodup ∧
    ∀ id ∈ new, id ∉ s.handed ∧ ∀ g ∈ s.generations, id ∉ ids g

theorem Fresh.of_handed (h : s'.handed = s.handed) : s.Fresh s' :=
  ⟨[], h, List.nodup_nil, nofun⟩

/-- A turn that leaves the store, the counters and the history. -/
structure Same (s s' : Shared) : Prop where
  store : s'.store = s.store
  seq : s'.seq = s.seq
  handed : s'.handed = s.handed
  generations : s'.generations = s.generations

theorem Same.sound (h : s.Same s') (hs : s.Sound) : s'.Sound := by
  obtain ⟨store, seq, storeLock, seqLock, handed, generations⟩ := s
  obtain ⟨store', seq', storeLock', seqLock', handed', generations'⟩ := s'
  obtain ⟨rfl, rfl, rfl, rfl⟩ := h
  exact ⟨hs.file, hs.absent, hs.nodup, hs.grows, hs.handed, hs.bound⟩

theorem Same.current (h : s.Same s') : s'.current = s.current :=
  congrArg (List.headD · []) h.generations

theorem Same.change (h : s.Same s')
    (hstore : ∀ q, q ≠ p → s.storeLock = some q → s'.storeLock = some q)
    (hseq : ∀ q, q ≠ p → s.seqLock = some q → s'.seqLock = some q) : s.Change s' p where
  ready hready := by
    unfold Ready
    rw [h.store]
    exact hready
  storeLock := hstore
  seqLock := hseq
  current _ := h.current
  added _ id hid := by
    rw [h.current] at hid
    exact .inl hid
  seq _ := ⟨h.seq, h.handed⟩
  handed := by rw [h.handed]; exact List.Subset.refl _

/-! ### What a publication does -/

/-- File operations that put the items into `tasks.jsonl` or leave it alone, wherever they
are cut. -/
structure Lands (s : Shared) (items : List Mapping) (ops : List FileOp) : Prop where
  file : ∀ k, (s.store.applyAll (ops.take k)).file .tasks = s.store.file .tasks ∨
    ∃ data, (s.store.applyAll (ops.take k)).file .tasks = some data ∧
      ∀ others, Holds data others → others = items
  nodup : ops ≠ [] → (ids items).Nodup

variable {items : List Mapping} {batch : List String} {ops : List FileOp}

theorem land_ready (hready : s.Ready) (hlands : s.Lands items ops) (k : ℕ) :
    (s.land items batch (ops.take k)).Ready := by
  have hstore : (s.land items batch (ops.take k)).store = s.store.applyAll (ops.take k) := by
    unfold land
    simp only
    split <;> rfl
  unfold Ready
  rw [hstore, applyAll_legacy]
  rcases hready with hsome | hlegacy
  · left
    rcases hlands.file k with hsame | ⟨data, hdata, -⟩
    · rw [hsame]
      exact hsome
    · rw [hdata]
      rfl
  · exact .inr hlegacy

theorem land_cases (s : Shared) (items : List Mapping) (batch : List String) (ops : List FileOp) :
    (s.land items batch ops = { s with store := s.store.applyAll ops } ∧
      (s.store.applyAll ops).file .tasks = s.store.file .tasks) ∨
    (s.land items batch ops = { s.record items batch with store := s.store.applyAll ops } ∧
      (s.store.applyAll ops).file .tasks ≠ s.store.file .tasks) := by
  unfold land
  simp only
  split
  · rename_i hsame
    exact .inl ⟨rfl, hsame⟩
  · rename_i hne
    exact .inr ⟨rfl, hne⟩

/-- What may be published: the last generation with items that were handed out, and a batch
of new ids. -/
structure Publishable (s : Shared) (items : List Mapping) (batch : List String) : Prop where
  covers : ids s.current ⊆ ids items
  batchNodup : batch.Nodup
  batchNew : ∀ id ∈ batch, id ∉ s.handed ∧ id ∉ ids s.current
  batchIn : batch ⊆ ids items

theorem Sound.land (h : s.Sound) (hlands : s.Lands items ops) (hpub : s.Publishable items batch)
    (k : ℕ) : (s.land items batch (ops.take k)).Sound := by
  rcases s.land_cases items batch (ops.take k) with ⟨heq, hsame⟩ | ⟨heq, hne⟩
  · rw [heq]
    refine ⟨?_, ?_, h.nodup, h.grows, h.handed, h.bound⟩
    · intro data hdata
      exact h.file data (hsame.symm.trans hdata)
    · intro hnone
      exact h.absent (hsame.symm.trans hnone)
  · have hops : ops ≠ [] := by
      rintro rfl
      rw [List.take_nil] at hne
      exact hne rfl
    obtain ⟨data, hdata, hholds⟩ := (hlands.file k).resolve_left hne
    rw [heq]
    refine ⟨?_, ?_, ?_, ?_, ?_, ?_⟩
    · intro data' hdata' others hothers
      cases hdata.symm.trans hdata'
      exact hholds others hothers
    · intro hnone
      have habsurd : some data = none := hdata.symm.trans hnone
      cases habsurd
    · exact List.forall_mem_cons.mpr ⟨hlands.nodup hops, h.nodup⟩
    · refine List.pairwise_cons.mpr ⟨?_, h.grows⟩
      intro g hg
      exact List.Subset.trans (h.subset_current hg) hpub.covers
    · refine List.nodup_append.mpr ⟨hpub.batchNodup, h.handed, ?_⟩
      rintro id hid id' hid' rfl
      exact (hpub.batchNew id hid).1 hid'
    · intro f n hmem
      rcases List.mem_append.mp hmem with hbatch | hhanded
      · exact .inr (hpub.batchIn hbatch)
      · rcases h.bound f n hhanded with hle | hcurrent
        · exact .inl hle
        · exact .inr (hpub.covers hcurrent)

theorem Fresh.land (h : s.Sound) (hpub : s.Publishable items batch) (ops : List FileOp) :
    s.Fresh (s.land items batch ops) := by
  rcases s.land_cases items batch ops with ⟨heq, -⟩ | ⟨heq, -⟩
  · rw [heq]
    exact .of_handed rfl
  · rw [heq]
    refine ⟨batch, rfl, hpub.batchNodup, ?_⟩
    intro id hid
    obtain ⟨hhanded, hcurrent⟩ := hpub.batchNew id hid
    exact ⟨hhanded, fun g hg hmem => hcurrent (h.subset_current hg hmem)⟩

theorem Change.land (hlands : s.Lands items ops) (hlock : s.storeLock = some p)
    (hadded : s.Ready → ∀ id ∈ ids items, id ∈ ids s.current ∨ id ∈ s.handed ∨ id ∈ batch)
    (hbatch : batch ≠ [] → s.seqLock = some p) (k : ℕ) :
    s.Change (s.land items batch (ops.take k)) p := by
  have hready : s.Ready → (s.land items batch (ops.take k)).Ready :=
    fun hready => land_ready hready hlands k
  rcases s.land_cases items batch (ops.take k) with ⟨heq, -⟩ | ⟨heq, -⟩
  · rw [heq] at hready ⊢
    exact
      { ready := hready
        storeLock := fun _ _ hq => hq
        seqLock := fun _ _ hq => hq
        current := fun hne => absurd hlock hne
        added := fun _ id hid => .inl hid
        seq := fun _ => ⟨rfl, rfl⟩
        handed := List.Subset.refl _ }
  · rw [heq] at hready ⊢
    refine
      { ready := hready
        storeLock := fun _ _ hq => hq
        seqLock := fun _ _ hq => hq
        current := fun hne => absurd hlock hne
        added := ?_
        seq := ?_
        handed := List.subset_append_right _ _ }
    · intro hbefore id hid
      rcases hadded hbefore id hid with hcurrent | hhanded | hmem
      · exact .inl hcurrent
      · exact .inr (.inl hhanded)
      · exact .inr (.inr (hbatch (List.ne_nil_of_mem hmem)))
    · intro hne
      have hnil : batch = [] := by
        by_contra hsome
        exact hne (hbatch hsome)
      subst hnil
      exact ⟨rfl, rfl⟩

theorem leave_same (s : Shared) (p : ℕ) : s.Same (s.leave p) := ⟨rfl, rfl, rfl, rfl⟩

theorem leave_change (s : Shared) (p : ℕ) : s.Change (s.leave p) p := by
  refine (leave_same s p).change ?_ ?_
  · intro q hq hlock
    show (if s.storeLock = some p then none else s.storeLock) = some q
    rw [hlock, if_neg fun heq => hq (Option.some.inj heq)]
  · intro q hq hlock
    show (if s.seqLock = some p then none else s.seqLock) = some q
    rw [hlock, if_neg fun heq => hq (Option.some.inj heq)]

theorem Change.trans {s'' : Shared} (h : s.Change s' p) (h' : s'.Same s'')
    (hleave : s'.Change s'' p) : s.Change s'' p where
  ready hready := hleave.ready (h.ready hready)
  storeLock q hq hlock := hleave.storeLock q hq (h.storeLock q hq hlock)
  seqLock q hq hlock := hleave.seqLock q hq (h.seqLock q hq hlock)
  current hlock := h'.current.trans (h.current hlock)
  added hready id hid := by
    rw [h'.current] at hid
    exact h.added hready id hid
  seq hlock := ⟨h'.seq.trans (h.seq hlock).1, h'.handed.trans (h.seq hlock).2⟩
  handed := by
    rw [h'.handed]
    exact h.handed

end Shared

/-! ### Places in a script -/

/-- What a process has at a place of its script: the locks it holds, and what it has found
out. -/
structure Phase where
  ready : Bool
  store : Bool
  loaded : Bool
  seq : Bool
  next : Bool
  minted : Bool
  batch : Bool

/-- A process that has nothing. -/
def Phase.idle : Phase := ⟨false, false, false, false, false, false, false⟩

/-- What it has after an instruction, where the instruction is in place. -/
def Phase.after (φ : Phase) : Instr → Option Phase
  | .ready => if φ.store || φ.loaded || φ.seq then none else some { φ with ready := true }
  | .lockStore => if φ.store || φ.loaded then none else some { φ with store := true }
  | .unlockStore =>
    if φ.store && !φ.batch then some { φ with store := false, loaded := false } else none
  | .lockSeq => if φ.seq then none else some { φ with seq := true }
  | .unlockSeq => if φ.seq && !φ.batch then some { φ with seq := false, next := false } else none
  | .migrate => if φ.store && !φ.loaded && !φ.seq then some { φ with ready := true } else none
  | .recover => if φ.store && !φ.loaded && !φ.next && !φ.batch then some φ else none
  | .load _ => if φ.store && φ.ready && !φ.batch then some { φ with loaded := true } else none
  | .readNumber _ => if φ.seq && φ.ready then some { φ with next := true } else none
  | .writeNumber =>
    if φ.next && !φ.batch then some { φ with next := false, minted := true } else none
  | .add .. => if φ.loaded && φ.minted then some { φ with minted := false } else none
  | .edit _ => if φ.loaded then some φ else none
  | .allocate _ =>
    if φ.loaded && φ.seq && φ.ready && !φ.next && !φ.batch then some { φ with batch := true }
    else none
  | .publish =>
    if φ.loaded && !φ.next then some { φ with loaded := false, batch := false } else none
  | .advance => if φ.seq && φ.ready && !φ.next && !φ.batch then some φ else none

/-- Every instruction of the script is in place. -/
def Disciplined : Phase → Script → Prop
  | _, .done => True
  | φ, .choose _ yes no => Disciplined φ yes ∧ Disciplined φ no
  | φ, .step i rest => ∃ φ', φ.after i = some φ' ∧ Disciplined φ' rest

theorem disciplined_reserve {φ : Phase} {f : Family} (hseq : φ.seq = false)
    (hready : φ.ready = true) (hbatch : φ.batch = false)
    (h : Disciplined { φ with seq := false, next := false, minted := true } rest) :
    Disciplined φ (.reserve f rest) := by
  obtain ⟨ready, store, loaded, seq, next, minted, batch⟩ := φ
  simp only at hseq hready hbatch
  subst hseq hready hbatch
  exact ⟨_, rfl, _, rfl, _, rfl, _, rfl, h⟩

/-- A process with the loaded items. -/
def Phase.opened : Phase := ⟨true, true, true, false, false, false, false⟩

theorem disciplined_save : Disciplined .opened .save := ⟨_, rfl, _, rfl, trivial⟩

theorem disciplined_mintMissing (h : Disciplined .opened rest) :
    ∀ candidates : List Candidate, Disciplined .opened (mintMissing candidates rest) := by
  intro candidates
  induction candidates with
  | nil => exact h
  | cons c more ih =>
    refine ⟨ih, disciplined_reserve rfl rfl rfl ?_⟩
    exact ⟨_, rfl, ih⟩

theorem disciplined_opening (requireValid : Bool) (h : Disciplined .opened rest) :
    Disciplined .idle (.step .ready (.opening requireValid rest)) :=
  ⟨_, rfl, _, rfl, _, rfl, _, rfl, h⟩

/-- **The commands keep to the locks.** -/
theorem disciplined_script : ∀ c : Command, Disciplined .idle c.script := by
  intro c
  cases c with
  | new f fields =>
    refine ⟨_, rfl, disciplined_reserve rfl rfl rfl ?_⟩
    exact ⟨_, rfl, _, rfl, _, rfl, _, rfl, disciplined_save⟩
  | capture f captureKey allowDuplicate merge fields =>
    refine disciplined_opening true ⟨⟨?_, ?_⟩, disciplined_reserve rfl rfl rfl ?_⟩
    · exact ⟨_, rfl, trivial⟩
    · exact ⟨_, rfl, disciplined_save⟩
    · exact ⟨_, rfl, disciplined_save⟩
  | review crumb bugs =>
    exact disciplined_opening false ⟨_, rfl, disciplined_mintMissing disciplined_save _⟩
  | harvest candidates =>
    exact disciplined_opening false (disciplined_mintMissing disciplined_save _)
  | importItems records collides =>
    refine disciplined_opening true ⟨_, rfl, trivial, ?_⟩
    exact ⟨_, rfl, _, rfl, _, rfl, _, rfl, _, rfl, trivial⟩
  | mutate requireValid e =>
    exact disciplined_opening requireValid ⟨_, rfl, disciplined_save⟩
  | read => exact ⟨_, rfl, _, rfl, _, rfl, trivial⟩

/-! ### What a process relies on -/

/-- What a process has is so. -/
structure Phase.Agrees (φ : Phase) (s : Shared) (p : ℕ) (t : Thread) : Prop where
  ready : φ.ready = true → s.Ready
  store : φ.store = true → s.storeLock = some p
  seq : φ.seq = true → s.seqLock = some p
  held : φ.loaded = true → φ.store = true
  covers : φ.loaded = true → ids s.current ⊆ ids t.items
  /-- What a process adds was handed out to it, or is in its batch. -/
  known : φ.loaded = true → ∀ id ∈ ids t.items, id ∈ ids s.current ∨ id ∈ s.handed ∨ id ∈ t.batch
  counting : φ.next = true → φ.seq = true ∧ φ.ready = true
  next : φ.next = true → ∃ f n, t.next = some (f, n) ∧ s.seq f < n ∧
    ∀ m, mintedId f m ∈ ids s.current → m < n
  minted : φ.minted = true → ∃ id, t.minted = some id ∧ id ∈ s.handed
  locked : φ.batch = true → φ.loaded = true ∧ φ.seq = true
  none : φ.batch = false → t.batch = []
  batchNodup : t.batch.Nodup
  batchNew : ∀ id ∈ t.batch, id ∉ s.handed ∧ id ∉ ids s.current
  batchIn : t.batch ⊆ ids t.items

variable {φ : Phase} {s s' : Shared} {p q : ℕ} {t : Thread}

/-- **Others do not take away what a process has.** -/
theorem Phase.Agrees.stable (h : φ.Agrees s q t) (hsound : s.Sound) (hchange : s.Change s' p)
    (hq : q ≠ p) : φ.Agrees s' q t := by
  have hstore : φ.store = true → s'.current = s.current := by
    intro hφ
    apply hchange.current
    rw [h.store hφ]
    exact fun heq => hq (Option.some.inj heq)
  have hseq : φ.seq = true → s'.seq = s.seq ∧ s'.handed = s.handed := by
    intro hφ
    apply hchange.seq
    rw [h.seq hφ]
    exact fun heq => hq (Option.some.inj heq)
  refine
    { h with
      ready := fun hφ => hchange.ready (h.ready hφ)
      store := fun hφ => hchange.storeLock q hq (h.store hφ)
      seq := fun hφ => hchange.seqLock q hq (h.seq hφ)
      covers := ?_
      known := ?_
      next := ?_
      minted := ?_
      batchNew := ?_ }
  · intro hφ
    rw [hstore (h.held hφ)]
    exact h.covers hφ
  · intro hφ id hid
    rw [hstore (h.held hφ)]
    exact (h.known hφ id hid).imp_right (Or.imp_left fun hhanded => hchange.handed hhanded)
  · intro hφ
    obtain ⟨hφseq, hφready⟩ := h.counting hφ
    obtain ⟨f, n, hnext, hlt, hnumbers⟩ := h.next hφ
    refine ⟨f, n, hnext, ?_, ?_⟩
    · rw [(hseq hφseq).1]
      exact hlt
    · -- What was published meanwhile had been handed out, so it is counted.
      intro m hm
      rcases hchange.added (h.ready hφready) _ hm with hcurrent | hhanded | hlock
      · exact hnumbers m hcurrent
      · rcases hsound.bound f m hhanded with hle | hcurrent
        · exact hle.trans_lt hlt
        · exact hnumbers m hcurrent
      · rw [h.seq hφseq] at hlock
        exact absurd (Option.some.inj hlock) hq
  · intro hφ
    obtain ⟨id, hminted, hhanded⟩ := h.minted hφ
    exact ⟨id, hminted, hchange.handed hhanded⟩
  · cases hφ : φ.batch with
    | false =>
      rw [h.none hφ]
      exact nofun
    | true =>
      obtain ⟨hφloaded, hφseq⟩ := h.locked hφ
      rw [hstore (h.held hφloaded), (hseq hφseq).2]
      exact h.batchNew

/-- The process is where its script says. -/
def InPlace (s : Shared) (p : ℕ) (t : Thread) : Prop :=
  ∃ φ : Phase, Disciplined φ t.script ∧ φ.Agrees s p t

theorem agrees_idle (s : Shared) (p : ℕ) (script : Script) :
    Phase.idle.Agrees s p { Thread.idle with script := script } where
  ready h := by cases h
  store h := by cases h
  seq h := by cases h
  held h := by cases h
  covers h := by cases h
  known h := by cases h
  counting h := by cases h
  next h := by cases h
  minted h := by cases h
  locked h := by cases h
  none _ := rfl
  batchNodup := List.nodup_nil
  batchNew id hid := absurd hid List.not_mem_nil
  batchIn := List.nil_subset _

theorem inPlace_idle (s : Shared) (p : ℕ) : InPlace s p .idle := ⟨.idle, trivial, agrees_idle s p .done⟩

/-- **What a turn has to show.** -/
structure Outcome (s : Shared) (p : ℕ) (s' : Shared) (t' : Thread) : Prop where
  sound : s'.Sound
  change : s.Change s' p
  fresh : s.Fresh s'
  place : InPlace s' p t'

theorem Outcome.of_same (h : s.Same s') (hsound : s.Sound) {t' : Thread} (hchange : s.Change s' p)
    (hplace : InPlace s' p t') : Outcome s p s' t' :=
  ⟨h.sound hsound, hchange, .of_handed h.handed, hplace⟩

theorem Outcome.of_place (hsound : s.Sound) {t' : Thread} (hplace : InPlace s p t') :
    Outcome s p s t' := by
  have hsame : s.Same s := ⟨rfl, rfl, rfl, rfl⟩
  exact .of_same hsame hsound (hsame.change (fun _ _ h => h) fun _ _ h => h) hplace

theorem Phase.Agrees.not_batch (h : φ.Agrees s p t) (hloaded : φ.loaded = false) :
    φ.batch = false := by
  rw [Bool.eq_false_iff]
  intro hφ
  rw [(h.locked hφ).1] at hloaded
  cases hloaded

theorem Phase.Agrees.batch_nil (h : φ.Agrees s p t) (hloaded : φ.loaded = false) :
    t.batch = [] := h.none (h.not_batch hloaded)

theorem Outcome.leave (hsound : s.Sound) (p : ℕ) : Outcome s p (s.leave p) .idle :=
  .of_same (s.leave_same p) hsound (s.leave_change p) (inPlace_idle _ p)

/-! ### What a process writes to the store -/

variable {u : Digits} {recordSortTime : Mapping → ℤ} {w : StoreEnv} {i : Instr} {φ' : Phase}
  {items : List Mapping} {ops : List FileOp}

/-- A file that may be there after some of the operations of a publication. -/
def MayBe (s : Shared) (items : List Mapping) (file : Option Utf8.Bytes) : Prop :=
  file = s.store.file .tasks ∨ ∃ data, file = some data ∧ ∀ others, Holds data others → others = items

theorem applyAll_take_tasks (good : Option Utf8.Bytes → Prop) {store : Store}
    (h : good (store.file .tasks)) (hops : ∀ op ∈ ops, op.Keeps good) (k : ℕ) :
    good ((store.applyAll (ops.take k)).file .tasks) := by
  induction ops generalizing store k with
  | nil =>
    rw [List.take_nil]
    exact h
  | cons op ops ih =>
    cases k with
    | zero => exact h
    | succ k =>
      obtain ⟨hop, hrest⟩ := List.forall_mem_cons.mp hops
      rw [List.take_succ_cons, applyAll_cons]
      refine ih ?_ hrest k
      by_cases htarget : op.target? = some .tasks
      · cases op with
        | replace target data | restore target data =>
          obtain rfl : target = .tasks := Option.some.inj htarget
          exact hop
        | writeMarker | clearMarker => cases htarget
      · rw [apply_file_of_ne htarget]
        exact h

theorem mayBe_staged {source : List Document} (h : stageItems w source = .ok (written, g)) :
    MayBe s written (some (g.bytes .tasks)) := by
  obtain ⟨hvalid, hgeneration⟩ := stageItems_eq_ok h
  have htext := (stagedGeneration_eq_ok (checkedGeneration_eq_ok hgeneration).1).1
  exact .inr ⟨_, rfl, fun others hothers => (hothers.of_text hvalid htext).1⟩

theorem lands_publishOps {source : List Mapping}
    (h : stageItems w (source.map Mapping.document) = .ok (written, g)) :
    s.Lands written (publishOps w s.store g none) where
  file k := applyAll_take_tasks (MayBe s written) (.inl rfl)
    (keeps_publishOps (mayBe_staged h) (.inl rfl) none) k
  nodup _ := by
    obtain ⟨hids, hnodup⟩ := ids_stageItems h
    rw [hids]
    exact hnodup

theorem lands_regenerateOps {source : List Mapping}
    (h : stageItems w (source.map Mapping.document) = .ok (written, g)) :
    s.Lands written (regenerateOps w s.store g) where
  file k := by
    refine applyAll_take_tasks (MayBe s written) (.inl rfl) ?_ k
    intro op hop
    rcases List.mem_append.mp hop with hop | hclear
    · rcases List.mem_append.mp hop with hmirror | hrename
      · exact keeps_disableDashboardMirrors op hmirror
      · exact keeps_replace (mayBe_staged h) _ op hrename
    · rw [List.mem_singleton.mp hclear]
      trivial
  nodup _ := by
    obtain ⟨hids, hnodup⟩ := ids_stageItems h
    rw [hids]
    exact hnodup

/-- A write of a process that may publish. -/
structure Writing (s : Shared) (p : ℕ) (t : Thread) (items : List Mapping) (ops : List FileOp) :
    Prop where
  lands : s.Lands items ops
  publishable : s.Publishable items t.batch
  lock : s.storeLock = some p
  added : s.Ready → ∀ id ∈ ids items, id ∈ ids s.current ∨ id ∈ s.handed ∨ id ∈ t.batch
  batch : t.batch ≠ [] → s.seqLock = some p

theorem Phase.Agrees.batch_seq (h : φ.Agrees s p t) : t.batch ≠ [] → s.seqLock = some p := by
  intro hne
  cases hφ : φ.batch with
  | false => exact absurd (h.none hφ) hne
  | true => exact h.seq (h.locked hφ).2

theorem publishable_of_covers (hcovers : ids s.current ⊆ ids items) (hbatch : t.batch = []) :
    s.Publishable items t.batch := by
  rw [hbatch]
  exact ⟨hcovers, List.nodup_nil, nofun, List.nil_subset _⟩

theorem writing_migrate (hsound : s.Sound) (h : φ.Agrees s p t)
    (hafter : φ.after .migrate = some φ')
    (hwrites : Instr.writes recordSortTime w s t .migrate = some (items, ops)) :
    Writing s p t items ops := by
  obtain ⟨hguard, -⟩ := Option.ite_none_right_eq_some.mp hafter
  simp only [Bool.and_eq_true, Bool.not_eq_true'] at hguard
  have hbatch : t.batch = [] := h.batch_nil hguard.1.2
  simp only [Instr.writes] at hwrites
  split at hwrites
  · cases hwrites
  · rename_i hready
    have htasks : s.store.file .tasks = none := by
      cases hfile : s.store.file .tasks with
      | none => rfl
      | some data => exact absurd (.inl (by rw [hfile]; rfl)) hready
    obtain ⟨⟨written, g⟩, hstaged, hpair⟩ := Option.map_eq_some_iff.mp hwrites
    obtain ⟨rfl, rfl⟩ := Prod.mk.inj hpair
    cases hbind : readLegacyBestKnownGood recordSortTime s.store >>= fun best =>
        stageItems w (best.map Mapping.document) with
    | error e =>
      rw [hbind] at hstaged
      cases hstaged
    | ok staged =>
      rw [hbind] at hstaged
      cases hstaged
      obtain ⟨best, -, hstage⟩ := exists_of_bind_eq_ok hbind
      refine ⟨lands_publishOps hstage, publishable_of_covers ?_ hbatch, h.store hguard.1.1, ?_,
        h.batch_seq⟩
      · unfold Shared.current
        rw [hsound.absent htasks]
        exact List.nil_subset _
      · intro hisready
        exact absurd hisready hready

theorem writing_recover (hsound : s.Sound) (h : φ.Agrees s p t)
    (hafter : φ.after .recover = some φ')
    (hwrites : Instr.writes recordSortTime w s t .recover = some (items, ops)) :
    Writing s p t items ops := by
  obtain ⟨hguard, -⟩ := Option.ite_none_right_eq_some.mp hafter
  simp only [Bool.and_eq_true, Bool.not_eq_true'] at hguard
  simp only [Instr.writes] at hwrites
  split at hwrites
  · rename_i hmarker
    obtain ⟨recovered, hops, hpair⟩ := Option.map_eq_some_iff.mp hwrites
    obtain ⟨rfl, rfl⟩ := Prod.mk.inj hpair
    cases hrecover : recoverOps w s.store with
    | error e =>
      rw [hrecover] at hops
      cases hops
    | ok found =>
      rw [hrecover] at hops
      cases hops
      obtain ⟨data, read, g, hdata, hholds, hstage, rfl⟩ := recoverOps_eq_ok hmarker hrecover
      -- It writes the items that are there.
      have hread : (s.loaded w).getD [] = read := by
        obtain ⟨linesById, hparse⟩ := hholds
        unfold Shared.loaded loadItems readItems
        rw [hdata, hparse]
        rfl
      have hcurrent : read = s.current := hsound.file data hdata read hholds
      rw [hread]
      refine ⟨lands_regenerateOps hstage, publishable_of_covers ?_ (h.none hguard.2),
        h.store hguard.1.1.1, ?_, h.batch_seq⟩
      · rw [hcurrent]
        exact List.Subset.refl _
      · intro _ id hid
        rw [hcurrent] at hid
        exact .inl hid
  · cases hwrites

theorem writing_publish (h : φ.Agrees s p t) (hafter : φ.after .publish = some φ')
    (hwrites : Instr.writes recordSortTime w s t .publish = some (items, ops)) :
    Writing s p t items ops := by
  obtain ⟨hguard, -⟩ := Option.ite_none_right_eq_some.mp hafter
  have hφ : φ.loaded = true := (Bool.and_eq_true_iff.mp hguard).1
  obtain ⟨⟨written, g⟩, hstaged, hpair⟩ := Option.map_eq_some_iff.mp hwrites
  obtain ⟨rfl, rfl⟩ := Prod.mk.inj hpair
  cases hstage : stageItems w (t.items.map Mapping.document) with
  | error e =>
    rw [hstage] at hstaged
    cases hstaged
  | ok staged =>
    rw [hstage] at hstaged
    cases hstaged
    obtain ⟨hids, -⟩ := ids_stageItems hstage
    refine ⟨lands_publishOps hstage, ⟨?_, h.batchNodup, h.batchNew, ?_⟩, h.store (h.held hφ), ?_,
      h.batch_seq⟩
    · rw [hids]
      exact h.covers hφ
    · rw [hids]
      exact h.batchIn
    · intro _ id hid
      rw [hids] at hid
      exact h.known hφ id hid

/-- **What a process writes may be published**, wherever it is cut. -/
theorem writing_of_writes (hsound : s.Sound) (h : φ.Agrees s p t) (hafter : φ.after i = some φ')
    (hwrites : i.writes recordSortTime w s t = some (items, ops)) : Writing s p t items ops := by
  cases i with
  | migrate => exact writing_migrate hsound h hafter hwrites
  | recover => exact writing_recover hsound h hafter hwrites
  | publish => exact writing_publish h hafter hwrites
  | _ => cases hwrites

theorem outcome_crash (hsound : s.Sound) (hplace : InPlace s p t) (k : ℕ) :
    Outcome s p (s.crash recordSortTime w p k t) .idle := by
  obtain ⟨φ, hdisciplined, hagrees⟩ := hplace
  unfold Shared.crash
  split
  · rename_i i rest hscript
    rw [hscript] at hdisciplined
    obtain ⟨φ', hafter, -⟩ := hdisciplined
    split
    · exact .leave hsound p
    · rename_i written hwrites
      have hwriting := writing_of_writes hsound hagrees hafter hwrites
      have hland := hsound.land hwriting.lands hwriting.publishable k
      have hchange : s.Change (s.land written.1 t.batch (written.2.take k)) p :=
        .land hwriting.lands hwriting.lock hwriting.added hwriting.batch k
      have hleft := Shared.leave_same (s.land written.1 t.batch (written.2.take k)) p
      obtain ⟨new, hnew, hfresh⟩ : s.Fresh (s.land written.1 t.batch (written.2.take k)) :=
        .land hsound hwriting.publishable _
      exact ⟨hleft.sound hland, hchange.trans hleft (Shared.leave_change _ p), ⟨new, hnew, hfresh⟩,
        inPlace_idle _ p⟩
  · exact .leave hsound p

end GoalFlight.Tasks
