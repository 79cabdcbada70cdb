import GoalFlight.Tasks.Uniqueness

/-!
# Every turn hands out new ids

One lemma for each instruction, and the theorem about every run.
-/

namespace GoalFlight.Tasks

open Json Threads

variable {u : Digits} {recordSortTime : Mapping → ℤ} {w : StoreEnv} {φ φ' : Phase}
  {s s' : Shared} {p : ℕ} {t t' : Thread}
variable {items : List Mapping}
  {lineno : ℕ} {path : String} {seq : Family → ℕ} {ops : List FileOp}
  {batch : List String} {linesById : List (String × ℕ)}

/-! ### Numbers -/

theorem previewNumbers_spec (taken : Family → ℕ) (families : List Family) :
    (previewNumbers taken families).Nodup ∧
      ∀ n ∈ previewNumbers taken families, n.1 ∈ families ∧ taken n.1 < n.2 := by
  induction families generalizing taken with
  | nil => exact ⟨List.nodup_nil, nofun⟩
  | cons f rest ih =>
    obtain ⟨hnodup, hspec⟩ := ih (Function.update taken f (taken f + 1))
    have hmore : ∀ n ∈ previewNumbers (Function.update taken f (taken f + 1)) rest,
        n.1 ∈ rest ∧ taken n.1 < n.2 ∧ (n.1 = f → taken f + 1 < n.2) := by
      intro n hn
      obtain ⟨hmem, hlt⟩ := hspec n hn
      by_cases hf : n.1 = f
      · rw [hf, Function.update_self] at hlt
        rw [hf] at hmem ⊢
        exact ⟨hmem, by omega, fun _ => hlt⟩
      · rw [Function.update_of_ne hf] at hlt
        exact ⟨hmem, hlt, fun heq => absurd heq hf⟩
    refine ⟨List.nodup_cons.mpr ⟨?_, hnodup⟩, List.forall_mem_cons.mpr ⟨?_, ?_⟩⟩
    · intro hmem
      exact Nat.lt_irrefl _ ((hmore _ hmem).2.2 rfl)
    · exact ⟨List.mem_cons_self, Nat.lt_succ_self _⟩
    · intro n hn
      obtain ⟨hmem, hlt, -⟩ := hmore n hn
      exact ⟨List.mem_cons_of_mem _ hmem, hlt⟩

theorem length_previewNumbers (taken : Family → ℕ) (families : List Family) :
    (previewNumbers taken families).length = families.length := by
  induction families generalizing taken with
  | nil => rfl
  | cons f rest ih => exact congrArg Nat.succ (ih _)

theorem takenNumber_spec {f : Family} {taken : ℕ}
    (h : takenNumber u seq items f = some taken) :
    seq f ≤ taken ∧ ∀ n, mintedId f n ∈ ids items → n ≤ taken := by
  obtain ⟨m, hmax, rfl⟩ := Option.map_eq_some_iff.mp h
  refine ⟨Nat.le_max_left _ _, ?_⟩
  intro n hn
  exact (le_maxExistingSequence u hmax hn).trans (Nat.le_max_right _ _)

theorem takenNumbers_spec {taken : Family → ℕ} {families : List Family}
    (h : takenNumbers u seq items families = some taken) :
    ∀ f ∈ families, seq f ≤ taken f ∧ ∀ n, mintedId f n ∈ ids items → n ≤ taken f := by
  unfold takenNumbers at h
  split at h
  · rename_i hall
    cases h
    intro f hf
    obtain ⟨number, hnumber⟩ := Option.isSome_iff_exists.mp (hall f hf)
    have hspec := takenNumber_spec hnumber
    simp only [hnumber, Option.getD_some]
    exact hspec
  · cases h

/-- **Allocated ids** are as many as the families, differ, and are new. -/
theorem previewIds_spec {taken : Family → ℕ} {families : List Family}
    (h : takenNumbers u seq items families = some taken) :
    let batch := (previewNumbers taken families).map fun n => mintedId n.1 n.2
    batch.length = families.length ∧ batch.Nodup ∧ ∀ id ∈ batch, id ∉ ids items := by
  obtain ⟨hnodup, hnumbers⟩ := previewNumbers_spec taken families
  refine ⟨?_, ?_, ?_⟩
  · rw [List.length_map, length_previewNumbers]
  · refine List.Nodup.map_on ?_ hnodup
    intro a _ b _ heq
    obtain ⟨hf, hn⟩ := mintedId_inj heq
    exact Prod.ext hf hn
  · intro id hid hmem
    obtain ⟨⟨f, n⟩, hn, rfl⟩ := List.mem_map.mp hid
    obtain ⟨hf, hlt⟩ := hnumbers _ hn
    exact absurd ((takenNumbers_spec h f hf).2 n hmem) (Nat.not_le_of_lt hlt)

theorem ids_zipWith_withId (fields : ImportRecord → Mapping) {records : List ImportRecord}
    (h : batch.length = records.length) :
    ids (List.zipWith (fun record id => withId id (fields record)) records batch) = batch := by
  induction records generalizing batch with
  | nil => rw [List.eq_nil_of_length_eq_zero h]; rfl
  | cons record rest ih =>
    obtain ⟨id, more, rfl⟩ := List.exists_cons_of_length_eq_add_one h
    show idOf (withId id (fields record)) :: ids _ = id :: more
    rw [idOf_withId, ih (Nat.succ.inj h)]

/-! ### Instructions -/

theorem agrees_of_same (h : φ.Agrees s p t) (hsame : s.Same s')
    (hstore : φ.store = true → s'.storeLock = some p) (hseq : φ.seq = true → s'.seqLock = some p) :
    φ.Agrees s' p t := by
  obtain ⟨store, seq, storeLock, seqLock, handed, generations⟩ := s
  obtain ⟨store', seq', storeLock', seqLock', handed', generations'⟩ := s'
  obtain ⟨rfl, rfl, rfl, rfl⟩ := hsame
  exact
    { h with
      store := hstore
      seq := hseq }

theorem Phase.Agrees.setReady (h : φ.Agrees s p t) (hready : s.Ready) :
    Phase.Agrees { φ with ready := true } s p t :=
  { h with
    ready := fun _ => hready
    counting := fun hφ => ⟨(h.counting hφ).1, rfl⟩ }

variable {i : Instr} {rest : Script}

theorem outcome_ready (hsound : s.Sound) (hscript : t.script = rest) (h : φ.Agrees s p t)
    (hafter : φ.after .ready = some φ') (hrest : Disciplined φ' rest)
    (hperform : Instr.perform u recordSortTime w p s t .ready = some (s', t')) :
    Outcome s p s' t' := by
  obtain ⟨hguard, hphase⟩ := Option.ite_none_left_eq_some.mp hafter
  cases hphase
  simp only [Bool.or_eq_true, not_or, Bool.not_eq_true] at hguard
  obtain ⟨⟨hstore, hloaded⟩, hseq⟩ := hguard
  simp only [Instr.perform] at hperform
  split at hperform
  · rename_i hready
    obtain ⟨rfl, rfl⟩ := Prod.mk.inj (Option.some.inj hperform)
    rw [← hscript] at hrest
    exact .of_place hsound ⟨_, hrest, h.setReady hready⟩
  · obtain ⟨rfl, rfl⟩ := Prod.mk.inj (Option.some.inj hperform)
    have hbatch := h.not_batch hloaded
    -- The store is migrated first.
    refine .of_place hsound ⟨φ, ?_, { h with }⟩
    rw [hscript]
    obtain ⟨ready, store, loaded, seq, next, minted, batch⟩ := φ
    simp only at hstore hloaded hseq hbatch
    subst hstore hloaded hseq hbatch
    exact ⟨_, rfl, _, rfl, _, rfl, hrest⟩

section

variable (hsound : s.Sound) (h : φ.Agrees s p t)
include hsound h

theorem outcome_lockStore (hfree : s.storeLock = none) (hafter : φ.after .lockStore = some φ')
    (hrest : Disciplined φ' t.script) : Outcome s p { s with storeLock := some p } t := by
  obtain ⟨-, hphase⟩ := Option.ite_none_left_eq_some.mp hafter
  cases hphase
  have hsame : s.Same { s with storeLock := some p } := ⟨rfl, rfl, rfl, rfl⟩
  refine .of_same hsame hsound (hsame.change ?_ fun _ _ hlock => hlock) ⟨_, hrest, ?_⟩
  · intro q _ hlock
    rw [hfree] at hlock
    cases hlock
  · have hagrees := agrees_of_same h hsame (fun _ => rfl) h.seq
    exact { hagrees with store := fun _ => rfl, held := fun _ => rfl }

theorem outcome_lockSeq (hfree : s.seqLock = none) (hafter : φ.after .lockSeq = some φ')
    (hrest : Disciplined φ' t.script) : Outcome s p { s with seqLock := some p } t := by
  obtain ⟨-, hphase⟩ := Option.ite_none_left_eq_some.mp hafter
  cases hphase
  have hsame : s.Same { s with seqLock := some p } := ⟨rfl, rfl, rfl, rfl⟩
  refine .of_same hsame hsound (hsame.change (fun _ _ hlock => hlock) ?_) ⟨_, hrest, ?_⟩
  · intro q _ hlock
    rw [hfree] at hlock
    cases hlock
  · have hagrees := agrees_of_same h hsame h.store fun _ => rfl
    exact { hagrees with
      seq := fun _ => rfl
      counting := fun hφ => ⟨rfl, (h.counting hφ).2⟩
      locked := fun hφ => ⟨(h.locked hφ).1, rfl⟩ }

theorem outcome_unlockStore (hafter : φ.after .unlockStore = some φ')
    (hrest : Disciplined φ' t.script) :
    Outcome s p { s with storeLock := none } t := by
  obtain ⟨hguard, hphase⟩ := Option.ite_none_right_eq_some.mp hafter
  cases hphase
  simp only [Bool.and_eq_true, Bool.not_eq_true'] at hguard
  have hsame : s.Same { s with storeLock := none } := ⟨rfl, rfl, rfl, rfl⟩
  refine .of_same hsame hsound (hsame.change ?_ fun _ _ hlock => hlock) ⟨_, hrest, ?_⟩
  · intro q hq hlock
    rw [h.store hguard.1] at hlock
    exact absurd (Option.some.inj hlock).symm hq
  · refine
      { h with
        store := nofun
        held := nofun
        covers := nofun
        known := nofun
        locked := fun hφ => ?_ }
    rw [hguard.2] at hφ
    cases hφ

theorem outcome_unlockSeq (hafter : φ.after .unlockSeq = some φ')
    (hrest : Disciplined φ' t.script) :
    Outcome s p { s with seqLock := none } t := by
  obtain ⟨hguard, hphase⟩ := Option.ite_none_right_eq_some.mp hafter
  cases hphase
  simp only [Bool.and_eq_true, Bool.not_eq_true'] at hguard
  have hsame : s.Same { s with seqLock := none } := ⟨rfl, rfl, rfl, rfl⟩
  refine .of_same hsame hsound (hsame.change (fun _ _ hlock => hlock) ?_) ⟨_, hrest, ?_⟩
  · intro q hq hlock
    rw [h.seq hguard.1] at hlock
    exact absurd (Option.some.inj hlock).symm hq
  · refine
      { h with
        seq := nofun
        counting := nofun
        next := nofun
        locked := fun hφ => ?_ }
    rw [hguard.2] at hφ
    cases hφ

end

theorem outcome_land (hsound : s.Sound) (h : Writing s p t items ops)
    (hplace : InPlace (s.land items t.batch ops) p t') :
    Outcome s p (s.land items t.batch ops) t' := by
  have hland := hsound.land h.lands h.publishable ops.length
  have hchange : s.Change (s.land items t.batch (ops.take ops.length)) p :=
    .land h.lands h.lock h.added h.batch ops.length
  rw [List.take_length] at hland hchange
  exact ⟨hland, hchange, .land hsound h.publishable ops, hplace⟩

theorem agrees_land (h : φ.Agrees s p t) (hwriting : Writing s p t items ops)
    (hnext : φ.next = false) (hminted : t'.minted = t.minted) (hbatch : t'.batch = []) :
    Phase.Agrees { φ with loaded := false, batch := false } (s.land items t.batch ops) p t' := by
  have hchange : s.Change (s.land items t.batch (ops.take ops.length)) p :=
    .land hwriting.lands hwriting.lock hwriting.added hwriting.batch ops.length
  have hlocks : (s.land items t.batch ops).storeLock = s.storeLock ∧
      (s.land items t.batch ops).seqLock = s.seqLock := by
    rcases s.land_cases items t.batch ops with ⟨heq, -⟩ | ⟨heq, -⟩ <;> rw [heq] <;> exact ⟨rfl, rfl⟩
  rw [List.take_length] at hchange
  exact
    { ready := fun hφ => hchange.ready (h.ready hφ)
      store := fun hφ => hlocks.1.trans (h.store hφ)
      seq := fun hφ => hlocks.2.trans (h.seq hφ)
      held := nofun
      covers := nofun
      known := nofun
      counting := fun hφ => by rw [hnext] at hφ; cases hφ
      next := fun hφ => by rw [hnext] at hφ; cases hφ
      minted := fun hφ => by
        obtain ⟨id, hid, hhanded⟩ := h.minted hφ
        exact ⟨id, hminted.trans hid, hchange.handed hhanded⟩
      locked := nofun
      none := fun _ => hbatch
      batchNodup := by rw [hbatch]; exact List.nodup_nil
      batchNew := by rw [hbatch]; exact nofun
      batchIn := by rw [hbatch]; exact List.nil_subset _ }

theorem ready_of_publishOps {g : Generation} :
    (s.land items batch (publishOps w s.store g none)).Ready := by
  have hfile : (s.store.applyAll (publishOps w s.store g none)).file .tasks =
      some (g.bytes .tasks) := applyAll_publishOps List.mem_cons_self (by decide)
  left
  rcases s.land_cases items batch (publishOps w s.store g none) with ⟨heq, -⟩ | ⟨heq, -⟩ <;>
    · rw [heq]
      show ((s.store.applyAll (publishOps w s.store g none)).file .tasks).isSome = true
      rw [hfile]
      rfl

theorem writes_migrate_ready
    (h : Instr.writes recordSortTime w s t .migrate = some (items, ops)) :
    (s.land items batch ops).Ready := by
  simp only [Instr.writes] at h
  split at h
  · cases h
  · obtain ⟨⟨written, g⟩, -, hpair⟩ := Option.map_eq_some_iff.mp h
    obtain ⟨rfl, rfl⟩ := Prod.mk.inj hpair
    exact ready_of_publishOps

section

variable (hsound : s.Sound) (h : φ.Agrees s p t)
include hsound h

theorem outcome_migrate (hafter : φ.after .migrate = some φ') (hrest : Disciplined φ' t.script)
    (hperform : Instr.perform u recordSortTime w p s t .migrate = some (s', t')) :
    Outcome s p s' t' := by
  obtain ⟨hguard, hphase⟩ := Option.ite_none_right_eq_some.mp hafter
  cases hphase
  simp only [Bool.and_eq_true, Bool.not_eq_true'] at hguard
  obtain ⟨⟨-, hloaded⟩, hseq⟩ := hguard
  simp only [Instr.perform] at hperform
  split at hperform
  · rename_i hready
    obtain ⟨rfl, rfl⟩ := Prod.mk.inj (Option.some.inj hperform)
    exact .of_place hsound ⟨_, hrest, h.setReady hready⟩
  · obtain ⟨⟨items, ops⟩, hwrites, hpair⟩ := Option.map_eq_some_iff.mp hperform
    obtain ⟨rfl, rfl⟩ := Prod.mk.inj hpair
    have hwriting := writing_migrate hsound h hafter hwrites
    have hbatch := h.batch_nil hloaded
    have hnext : φ.next = false := by
      rw [Bool.eq_false_iff]
      intro hφ
      rw [(h.counting hφ).1] at hseq
      cases hseq
    have hagrees := agrees_land h hwriting hnext rfl hbatch
    have hφ := h.not_batch hloaded
    rw [← hbatch]
    refine outcome_land hsound hwriting ⟨_, hrest, ?_⟩
    obtain ⟨ready, store, loaded, seq, next, minted, batch⟩ := φ
    simp only at hloaded hφ
    subst hloaded hφ
    exact hagrees.setReady (writes_migrate_ready hwrites)

theorem outcome_recover (hafter : φ.after .recover = some φ') (hrest : Disciplined φ' t.script)
    (hperform : Instr.perform u recordSortTime w p s t .recover = some (s', t')) :
    Outcome s p s' t' := by
  obtain ⟨hguard, hphase⟩ := Option.ite_none_right_eq_some.mp hafter
  cases hphase
  simp only [Bool.and_eq_true, Bool.not_eq_true'] at hguard
  obtain ⟨⟨⟨-, hloaded⟩, hnext⟩, hφ⟩ := hguard
  simp only [Instr.perform] at hperform
  split at hperform
  · obtain ⟨⟨items, ops⟩, hwrites, hpair⟩ := Option.map_eq_some_iff.mp hperform
    obtain ⟨rfl, rfl⟩ := Prod.mk.inj hpair
    have hwriting := writing_recover hsound h hafter hwrites
    have hbatch := h.batch_nil hloaded
    have hagrees := agrees_land h hwriting hnext rfl hbatch
    rw [← hbatch]
    refine outcome_land hsound hwriting ⟨_, hrest, ?_⟩
    obtain ⟨ready, store, loaded, seq, next, minted, batch⟩ := φ
    simp only at hloaded hφ
    subst hloaded hφ
    exact hagrees
  · obtain ⟨rfl, rfl⟩ := Prod.mk.inj (Option.some.inj hperform)
    exact .of_place hsound ⟨_, hrest, h⟩

theorem outcome_publish (hafter : φ.after .publish = some φ') (hrest : Disciplined φ' t.script)
    (hperform : Instr.perform u recordSortTime w p s t .publish = some (s', t')) :
    Outcome s p s' t' := by
  obtain ⟨⟨items, ops⟩, hwrites, hpair⟩ := Option.map_eq_some_iff.mp hperform
  obtain ⟨rfl, rfl⟩ := Prod.mk.inj hpair
  have hwriting := writing_publish h hafter hwrites
  obtain ⟨hguard, hphase⟩ := Option.ite_none_right_eq_some.mp hafter
  cases hphase
  simp only [Bool.and_eq_true, Bool.not_eq_true'] at hguard
  exact outcome_land hsound hwriting ⟨_, hrest, agrees_land h hwriting hguard.2 rfl rfl⟩

theorem outcome_load {requireValid : Bool} (hafter : φ.after (.load requireValid) = some φ')
    (hrest : Disciplined φ' t.script)
    (hperform : Instr.perform u recordSortTime w p s t (.load requireValid) = some (s', t')) :
    Outcome s p s' t' := by
  obtain ⟨hguard, hphase⟩ := Option.ite_none_right_eq_some.mp hafter
  cases hphase
  simp only [Bool.and_eq_true, Bool.not_eq_true'] at hguard
  obtain ⟨⟨hstore, hready⟩, hbatch⟩ := hguard
  obtain ⟨-, -, hperform⟩ := Option.bind_eq_some_iff.mp hperform
  obtain ⟨items, hloaded, hpair⟩ := Option.bind_eq_some_iff.mp hperform
  obtain ⟨rfl, rfl⟩ := Prod.mk.inj (Option.some.inj hpair)
  obtain rfl := hsound.loaded_eq (h.ready hready) hloaded
  refine .of_place hsound ⟨_, hrest, ?_⟩
  exact
    { h with
      held := fun _ => hstore
      covers := fun _ => List.Subset.refl _
      known := fun _ id hid => .inl hid
      locked := fun hφ => by
        have hφ : φ.batch = true := hφ
        rw [hbatch] at hφ
        cases hφ
      batchIn := by
        show t.batch ⊆ _
        rw [h.none hbatch]
        exact List.nil_subset _ }

theorem outcome_readNumber {f : Family} (hafter : φ.after (.readNumber f) = some φ')
    (hrest : Disciplined φ' t.script)
    (hperform : Instr.perform u recordSortTime w p s t (.readNumber f) = some (s', t')) :
    Outcome s p s' t' := by
  obtain ⟨hguard, hphase⟩ := Option.ite_none_right_eq_some.mp hafter
  cases hphase
  obtain ⟨hseq, hready⟩ := Bool.and_eq_true_iff.mp hguard
  obtain ⟨items, hloaded, hperform⟩ := Option.bind_eq_some_iff.mp hperform
  obtain ⟨taken, htaken, hpair⟩ := Option.bind_eq_some_iff.mp hperform
  obtain ⟨rfl, rfl⟩ := Prod.mk.inj (Option.some.inj hpair)
  obtain rfl := hsound.loaded_eq (h.ready hready) hloaded
  obtain ⟨hcount, hnumbers⟩ := takenNumber_spec htaken
  refine .of_place hsound ⟨_, hrest, ?_⟩
  exact
    { h with
      counting := fun _ => ⟨hseq, hready⟩
      next := fun _ => ⟨f, taken + 1, rfl, Nat.lt_succ_of_le hcount,
        fun m hm => Nat.lt_succ_of_le (hnumbers m hm)⟩ }

/-- **The id that is handed out is new.** -/
theorem outcome_writeNumber (hafter : φ.after .writeNumber = some φ')
    (hrest : Disciplined φ' t.script)
    (hperform : Instr.perform u recordSortTime w p s t .writeNumber = some (s', t')) :
    Outcome s p s' t' := by
  obtain ⟨hguard, hphase⟩ := Option.ite_none_right_eq_some.mp hafter
  cases hphase
  simp only [Bool.and_eq_true, Bool.not_eq_true'] at hguard
  obtain ⟨hφ, hbatch⟩ := hguard
  obtain ⟨hseq, -⟩ := h.counting hφ
  obtain ⟨f, n, hnext, hcount, hnumbers⟩ := h.next hφ
  obtain ⟨⟨f', n'⟩, hread, hpair⟩ := Option.bind_eq_some_iff.mp hperform
  obtain ⟨rfl, rfl⟩ := Prod.mk.inj (Option.some.inj (hnext.symm.trans hread))
  obtain ⟨rfl, rfl⟩ := Prod.mk.inj (Option.some.inj hpair)
  have hcurrent : mintedId f n ∉ ids s.current := fun hmem => Nat.lt_irrefl n (hnumbers n hmem)
  have hnew : mintedId f n ∉ s.handed := by
    intro hmem
    rcases hsound.bound f n hmem with hle | hmem
    · exact absurd hle (Nat.not_le_of_lt hcount)
    · exact hcurrent hmem
  refine ⟨?_, ?_, ⟨[mintedId f n], rfl, List.nodup_singleton _, ?_⟩, ⟨_, hrest, ?_⟩⟩
  · refine ⟨hsound.file, hsound.absent, hsound.nodup, hsound.grows,
      List.nodup_cons.mpr ⟨hnew, hsound.handed⟩, ?_⟩
    intro g m hm
    show m ≤ Function.update s.seq f n g ∨ _
    rcases List.mem_cons.mp hm with heq | hm
    · obtain ⟨rfl, rfl⟩ := mintedId_inj heq
      rw [Function.update_self]
      exact .inl (Nat.le_refl _)
    · refine (hsound.bound g m hm).imp_left fun hle => ?_
      by_cases hg : g = f
      · subst hg
        rw [Function.update_self]
        omega
      · rw [Function.update_of_ne hg]
        exact hle
  · exact
      { ready := id
        storeLock := fun _ _ hlock => hlock
        seqLock := fun _ _ hlock => hlock
        current := fun _ => rfl
        added := fun _ id hid => .inl hid
        seq := fun hne => absurd (h.seq hseq) hne
        handed := List.subset_cons_self _ _ }
  · intro id hid
    obtain rfl := List.mem_singleton.mp hid
    exact ⟨hnew, fun g hg hmem => hcurrent (hsound.subset_current hg hmem)⟩
  · exact
      { h with
        known := fun hφ id hid => (h.known hφ id hid).imp_right
          (Or.imp_left (List.mem_cons_of_mem _))
        counting := nofun
        next := nofun
        minted := fun _ => ⟨_, rfl, List.mem_cons_self⟩
        batchNew := by
          rw [h.none hbatch]
          exact nofun }

theorem outcome_add {strict : Bool} {fields : List Mapping → Mapping}
    (hafter : φ.after (.add strict fields) = some φ') (hrest : Disciplined φ' t.script)
    (hperform : Instr.perform u recordSortTime w p s t (.add strict fields) = some (s', t')) :
    Outcome s p s' t' := by
  obtain ⟨hguard, hphase⟩ := Option.ite_none_right_eq_some.mp hafter
  cases hphase
  obtain ⟨hloaded, hminted⟩ := Bool.and_eq_true_iff.mp hguard
  obtain ⟨id, hid, hperform⟩ := Option.bind_eq_some_iff.mp hperform
  split at hperform
  · cases hperform
  · obtain ⟨rfl, rfl⟩ := Prod.mk.inj (Option.some.inj hperform)
    obtain ⟨id', hid', hhanded⟩ := h.minted hminted
    cases hid.symm.trans hid'
    have hids : ids (t.items ++ [withId id (fields t.items)]) = ids t.items ++ [id] := by
      unfold ids
      rw [List.map_append, List.map_singleton, idOf_withId]
    refine .of_place hsound ⟨_, hrest, ?_⟩
    exact
      { h with
        covers := fun hφ => by
          rw [hids]
          exact List.subset_append_of_subset_left _ (h.covers hφ)
        known := fun hφ other hother => by
          rw [hids] at hother
          rcases List.mem_append.mp hother with hold | hnew
          · exact h.known hφ other hold
          · rw [List.mem_singleton.mp hnew]
            exact .inr (.inl hhanded)
        minted := nofun
        batchIn := by
          rw [hids]
          exact List.subset_append_of_subset_left _ h.batchIn }

theorem outcome_edit {e : ItemEdit} (hafter : φ.after (.edit e) = some φ')
    (hrest : Disciplined φ' t.script)
    (hperform : Instr.perform u recordSortTime w p s t (.edit e) = some (s', t')) :
    Outcome s p s' t' := by
  obtain ⟨hloaded, hphase⟩ := Option.ite_none_right_eq_some.mp hafter
  cases hphase
  obtain ⟨items, hedit, hpair⟩ := Option.bind_eq_some_iff.mp hperform
  obtain ⟨rfl, rfl⟩ := Prod.mk.inj (Option.some.inj hpair)
  have hids : ids items = ids t.items := by
    cases he : e.edit t.items with
    | error err =>
      rw [he] at hedit
      cases hedit
    | ok edited =>
      rw [he] at hedit
      cases hedit
      exact e.ids _ _ he
  refine .of_place hsound ⟨_, hrest, ?_⟩
  exact
    { h with
      covers := fun hφ => by
        rw [hids]
        exact h.covers hφ
      known := fun hφ => by
        rw [hids]
        exact h.known hφ
      batchIn := by
        rw [hids]
        exact h.batchIn }

/-- **The ids that an import allocates are new.** -/
theorem outcome_allocate {records : List ImportRecord}
    (hafter : φ.after (.allocate records) = some φ') (hrest : Disciplined φ' t.script)
    (hperform : Instr.perform u recordSortTime w p s t (.allocate records) = some (s', t')) :
    Outcome s p s' t' := by
  obtain ⟨hguard, hphase⟩ := Option.ite_none_right_eq_some.mp hafter
  cases hphase
  simp only [Bool.and_eq_true, Bool.not_eq_true'] at hguard
  obtain ⟨⟨⟨⟨hloaded, hseq⟩, hready⟩, -⟩, hbatch⟩ := hguard
  obtain ⟨items, hitems, hperform⟩ := Option.bind_eq_some_iff.mp hperform
  obtain ⟨taken, htaken, hpair⟩ := Option.bind_eq_some_iff.mp hperform
  obtain ⟨rfl, rfl⟩ := Prod.mk.inj (Option.some.inj hpair)
  obtain rfl := hsound.loaded_eq (h.ready hready) hitems
  let missing := missingRecords (importKeys t.items) records
  let numbers := previewNumbers taken (missing.map ImportRecord.family)
  let batch := numbers.map fun n => mintedId n.1 n.2
  obtain ⟨-, hnumbers⟩ := previewNumbers_spec taken (missing.map ImportRecord.family)
  obtain ⟨hcounted, hbatchNodup, hbatchFresh⟩ := previewIds_spec htaken
  have hlength : batch.length = missing.length := hcounted.trans (List.length_map _)
  have hids : ids (t.items ++ List.zipWith
        (fun record id => withId id (record.fields t.items batch)) missing batch) =
      ids t.items ++ batch := by
    show (_ ++ _ : List Mapping).map idOf = _
    rw [List.map_append]
    exact congrArg (ids t.items ++ ·) (ids_zipWith_withId (·.fields t.items batch) hlength)
  have hbatchNew : ∀ id ∈ batch, id ∉ s.handed ∧ id ∉ ids s.current := by
    intro id hid
    have hcurrent := hbatchFresh id hid
    refine ⟨fun hmem => ?_, hcurrent⟩
    obtain ⟨⟨f, n⟩, hn, rfl⟩ := List.mem_map.mp hid
    obtain ⟨hf, hlt⟩ := hnumbers _ hn
    rcases hsound.bound f n hmem with hle | hmem
    · exact absurd (hle.trans (takenNumbers_spec htaken f hf).1) (Nat.not_le_of_lt hlt)
    · exact hcurrent hmem
  refine .of_place hsound ⟨_, hrest, ?_⟩
  exact
    { h with
      covers := fun hφ => by
        show ids s.current ⊆ ids (t.items ++ List.zipWith _ missing batch)
        rw [hids]
        exact List.subset_append_of_subset_left _ (h.covers hφ)
      known := fun hφ other hother => by
        have hother : other ∈ ids (t.items ++ List.zipWith
            (fun record id => withId id (record.fields t.items batch)) missing batch) := hother
        rw [hids] at hother
        rcases List.mem_append.mp hother with hold | hnew
        · rcases h.known hφ other hold with hcurrent | hhanded | hnone
          · exact .inl hcurrent
          · exact .inr (.inl hhanded)
          · rw [h.none hbatch] at hnone
            cases hnone
        · exact .inr (.inr hnew)
      locked := fun _ => ⟨hloaded, hseq⟩
      none := nofun
      batchNodup := hbatchNodup
      batchNew := hbatchNew
      batchIn := by
        show batch ⊆ ids (t.items ++ List.zipWith _ missing batch)
        rw [hids]
        exact List.subset_append_right _ _ }

theorem outcome_advance (hafter : φ.after .advance = some φ') (hrest : Disciplined φ' t.script)
    (hperform : Instr.perform u recordSortTime w p s t .advance = some (s', t')) :
    Outcome s p s' t' := by
  obtain ⟨hguard, hphase⟩ := Option.ite_none_right_eq_some.mp hafter
  cases hphase
  simp only [Bool.and_eq_true, Bool.not_eq_true'] at hguard
  obtain ⟨⟨⟨hseq, -⟩, hnext⟩, -⟩ := hguard
  simp only [Instr.perform] at hperform
  split at hperform
  · obtain ⟨rfl, rfl⟩ := Prod.mk.inj (Option.some.inj hperform)
    exact .of_place hsound ⟨_, hrest, h⟩
  obtain ⟨items, -, hperform⟩ := Option.bind_eq_some_iff.mp hperform
  obtain ⟨taken, htaken, hpair⟩ := Option.bind_eq_some_iff.mp hperform
  obtain ⟨rfl, rfl⟩ := Prod.mk.inj (Option.some.inj hpair)
  have hgrows : ∀ f, s.seq f ≤ if f ∈ t.families then taken f else s.seq f := by
    intro f
    split
    · rename_i hf
      exact (takenNumbers_spec htaken f hf).1
    · exact Nat.le_refl _
  refine ⟨?_, ?_, .of_handed rfl, ⟨_, hrest, ?_⟩⟩
  · refine ⟨hsound.file, hsound.absent, hsound.nodup, hsound.grows, hsound.handed, ?_⟩
    intro f n hn
    exact (hsound.bound f n hn).imp_left fun hle => hle.trans (hgrows f)
  · exact
      { ready := id
        storeLock := fun _ _ hlock => hlock
        seqLock := fun _ _ hlock => hlock
        current := fun _ => rfl
        added := fun _ id hid => .inl hid
        seq := fun hne => absurd (h.seq hseq) hne
        handed := List.Subset.refl _ }
  · exact
      { h with
        next := fun hφ => by
          rw [hnext] at hφ
          cases hφ }

/-! ### Turns and runs -/

theorem outcome_perform {i : Instr} (hfree : i.waits s = false) (hafter : φ.after i = some φ')
    (hrest : Disciplined φ' t.script)
    (hperform : i.perform u recordSortTime w p s t = some (s', t')) : Outcome s p s' t' := by
  cases i with
  | ready => exact outcome_ready hsound rfl h hafter hrest hperform
  | lockStore =>
    obtain ⟨rfl, rfl⟩ := Prod.mk.inj (Option.some.inj hperform)
    exact outcome_lockStore hsound h (Option.not_isSome_iff_eq_none.mp (Bool.eq_false_iff.mp hfree))
      hafter hrest
  | unlockStore =>
    obtain ⟨rfl, rfl⟩ := Prod.mk.inj (Option.some.inj hperform)
    exact outcome_unlockStore hsound h hafter hrest
  | lockSeq =>
    obtain ⟨rfl, rfl⟩ := Prod.mk.inj (Option.some.inj hperform)
    exact outcome_lockSeq hsound h (Option.not_isSome_iff_eq_none.mp (Bool.eq_false_iff.mp hfree))
      hafter hrest
  | unlockSeq =>
    obtain ⟨rfl, rfl⟩ := Prod.mk.inj (Option.some.inj hperform)
    exact outcome_unlockSeq hsound h hafter hrest
  | migrate => exact outcome_migrate hsound h hafter hrest hperform
  | recover => exact outcome_recover hsound h hafter hrest hperform
  | load requireValid => exact outcome_load hsound h hafter hrest hperform
  | readNumber f => exact outcome_readNumber hsound h hafter hrest hperform
  | writeNumber => exact outcome_writeNumber hsound h hafter hrest hperform
  | add strict fields => exact outcome_add hsound h hafter hrest hperform
  | edit e => exact outcome_edit hsound h hafter hrest hperform
  | allocate records => exact outcome_allocate hsound h hafter hrest hperform
  | publish => exact outcome_publish hsound h hafter hrest hperform
  | advance => exact outcome_advance hsound h hafter hrest hperform

end

theorem outcome_turn (hsound : s.Sound) (hplace : InPlace s p t) :
    Outcome s p (s.turn u recordSortTime w p t).1 (s.turn u recordSortTime w p t).2 := by
  obtain ⟨φ, hdisciplined, hagrees⟩ := hplace
  unfold Shared.turn
  split
  · exact .leave hsound p
  · rename_i test yes no hscript
    rw [hscript] at hdisciplined
    refine .of_place hsound ⟨φ, ?_, { hagrees with }⟩
    show Disciplined φ (if test t.items then yes else no)
    split
    · exact hdisciplined.1
    · exact hdisciplined.2
  · rename_i i rest hscript
    split
    · exact .of_place hsound ⟨φ, hdisciplined, hagrees⟩
    · rename_i hfree
      rw [hscript] at hdisciplined
      obtain ⟨φ', hafter, hrest⟩ := hdisciplined
      have hnext : φ.Agrees s p { t with script := rest } := { hagrees with }
      cases hperform : i.perform u recordSortTime w p s { t with script := rest } with
      | none => exact .leave hsound p
      | some next =>
        exact outcome_perform hsound hnext (Bool.eq_false_iff.mpr hfree) hafter hrest hperform

/-- **The invariant of the processes.** -/
def Minting (s : System) : Prop := Threads.Holds Shared.Sound InPlace s

/-- **Every event keeps the invariant, and hands out new ids.** -/
theorem minting_next {s : System} (h : Minting s) (e : Event) :
    Minting (s.next u recordSortTime e) ∧
      s.shared.Fresh (s.next u recordSortTime e).shared := by
  have hturn : ∀ {p : ℕ} {next : Shared × Thread}, Outcome s.shared p next.1 next.2 →
      Minting (s.turn p next) ∧ s.shared.Fresh (s.turn p next).shared := by
    intro p next houtcome
    refine ⟨Threads.Holds.turn h houtcome.sound houtcome.place ?_, houtcome.fresh⟩
    rintro q hq ⟨φ, hdisciplined, hagrees⟩
    exact ⟨φ, hdisciplined, hagrees.stable h.inv houtcome.change hq⟩
  cases e with
  | start p c =>
    unfold System.next
    simp only
    split
    · refine hturn ?_
      have hleave : Outcome s.shared p (s.shared.leave p) .idle := .leave h.inv p
      exact ⟨hleave.sound, hleave.change, hleave.fresh,
        ⟨.idle, disciplined_script c, agrees_idle _ p c.script⟩⟩
    · exact ⟨h, .of_handed rfl⟩
  | go p w => exact hturn (outcome_turn h.inv (h.ok p))
  | die p w k => exact hturn (outcome_crash h.inv (h.ok p) k)

/-! ### The store at the start -/

theorem idOf_migrateItemForRead (item : Mapping) : idOf (migrateItemForRead item) = idOf item := by
  have hget : (migrateItemForRead item).get? "id" = item.get? "id" := by
    unfold migrateItemForRead
    simp only
    rw [get?_reviewLegacy_of_ne _ _ (by decide), Mapping.get?_setDefault_of_ne _ (by decide),
      Mapping.get?_setDefault_of_ne _ (by decide), Mapping.get?_setDefault_of_ne _ (by decide)]
    split
    · rfl
    · exact Mapping.get?_set_of_ne _ (by decide) _
  unfold idOf
  rw [hget]

theorem parseItem_eq_ok {obj item : Mapping} {itemId : String}
    (h : parseItem path lineno linesById obj = .ok (itemId, item)) :
    linesById.lookup itemId = none ∧ idOf item = itemId := by
  have hitem : ∀ {id : String}, itemId? obj = some id → idOf (migrateItemForRead obj) = id :=
    fun hid => (idOf_migrateItemForRead obj).trans (idOf_eq hid)
  unfold parseItem at h
  split at h
  · cases h
  rename_i id hid
  split at h
  · cases h
  split at h
  · cases h
  split at h
  · cases h
  rename_i hlookup
  simp only at h
  split at h
  · cases h
  split at h
  · split at h
    · obtain ⟨rfl, rfl⟩ := Prod.mk.inj (Except.ok.inj h)
      exact ⟨hlookup, hitem hid⟩
    · cases h
  · obtain ⟨rfl, rfl⟩ := Prod.mk.inj (Except.ok.inj h)
    exact ⟨hlookup, hitem hid⟩

theorem parseLine_eq_ok {raw : List Char} {item : Mapping} {itemId : String}
    (h : parseLine path lineno linesById raw = .ok (some (itemId, item))) :
    linesById.lookup itemId = none ∧ idOf item = itemId := by
  unfold parseLine at h
  split at h
  · cases h
  split at h
  · cases h
  split at h
  · cases h
  rename_i obj _
  cases hparse : parseItem path lineno linesById obj with
  | error e =>
    rw [hparse] at h
    cases h
  | ok parsed =>
    rw [hparse] at h
    cases Except.ok.inj h
    exact parseItem_eq_ok hparse

theorem nodup_of_parseLines {before : List Mapping} {ends : List (String × ℕ)}
    {lines : List (List Char)} (hkeys : linesById.map Prod.fst = ids before)
    (hnodup : (ids before).Nodup)
    (h : parseLines path lineno before linesById lines = .ok (items, ends)) :
    (ids items).Nodup := by
  induction lines generalizing lineno before linesById with
  | nil =>
    obtain ⟨rfl, -⟩ := Prod.mk.inj (Except.ok.inj h)
    exact hnodup
  | cons raw rest ih =>
    unfold parseLines at h
    split at h
    · cases h
    · exact ih hkeys hnodup h
    · rename_i itemId item hline
      obtain ⟨hlookup, hid⟩ := parseLine_eq_ok hline
      have hids : ids (before ++ [item]) = ids before ++ [itemId] := by
        unfold ids
        rw [List.map_append, List.map_singleton, hid]
      refine ih ?_ ?_ h
      · rw [hids, List.map_append, hkeys]
        rfl
      · rw [hids]
        refine List.nodup_append.mpr ⟨hnodup, List.nodup_singleton _, ?_⟩
        rintro id hmem other hother rfl
        rw [List.mem_singleton.mp hother, ← hkeys] at hmem
        obtain ⟨⟨key, line⟩, hseen, rfl⟩ := List.mem_map.mp hmem
        have hne := List.lookup_eq_none_iff.mp hlookup _ hseen
        exact (bne_iff_ne.mp hne) rfl

theorem Holds.nodup {data : Utf8.Bytes} (h : Holds data items) :
    (ids items).Nodup := by
  obtain ⟨linesById, hparse⟩ := h
  unfold parseJsonl at hparse
  simp only at hparse
  split at hparse
  · cases hparse
  · exact nodup_of_parseLines rfl (show (ids []).Nodup from List.nodup_nil) hparse

theorem minting_start (store : Store) (seq : Family → ℕ) : Minting (System.start store seq) where
  inv := by
    refine ⟨?_, ?_, ?_, ?_, List.nodup_nil, nofun⟩
    · rintro data hdata items ⟨linesById, hparse⟩
      show items = (heldGenerations (store.file .tasks)).headD []
      have hdata : store.file .tasks = some data := hdata
      rw [hdata]
      unfold heldGenerations
      simp only
      rw [hparse]
      rfl
    · intro hnone
      show heldGenerations (store.file .tasks) = []
      have hnone : store.file .tasks = none := hnone
      rw [hnone]
      rfl
    · intro g hg
      have hg : g ∈ heldGenerations (store.file .tasks) := hg
      unfold heldGenerations at hg
      split at hg
      · cases hg
      split at hg
      · cases hg
      · rename_i data items linesById hparse
        rw [List.mem_singleton.mp hg]
        exact Holds.nodup ⟨linesById, hparse⟩
    · show (heldGenerations (store.file .tasks)).Pairwise _
      unfold heldGenerations
      split
      · exact .nil
      split
      · exact .nil
      · exact List.pairwise_singleton _ _
  ok p := inPlace_idle _ p

variable (u recordSortTime)

/-- The ids that an import has allocated differ, and are new. -/
def System.AllocatesNew (s : System) (p : ℕ) : Prop :=
  (s.place p).batch.Nodup ∧ ∀ id ∈ (s.place p).batch,
    id ∉ s.shared.handed ∧ ∀ g ∈ s.shared.generations, id ∉ ids g

theorem Minting.allocatesNew {s : System} (h : Minting s) (p : ℕ) : s.AllocatesNew p := by
  obtain ⟨φ, -, hagrees⟩ := h.ok p
  refine ⟨hagrees.batchNodup, ?_⟩
  intro id hid
  obtain ⟨hhanded, hcurrent⟩ := hagrees.batchNew id hid
  exact ⟨hhanded, fun g hg hmem => hcurrent (h.inv.subset_current hg hmem)⟩

end GoalFlight.Tasks
