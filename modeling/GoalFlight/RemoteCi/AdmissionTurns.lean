import GoalFlight.RemoteCi.Exclusive

/-!
# Remote CI: the turns of admission

One lemma for each part of a process: the passes over the run directories, the grant of a token and
of a slot, the life of an admitted lease, and its release by its holder or by another.
-/

namespace GoalFlight.RemoteCi

variable {ℓ : ℕ} {file : LeaseFile}

section Turns

variable {pool p : ℕ} {root : Root} {process : Process} {a : RootAnswer}

theorem lease_of_read (h : root.read a ℓ = some file) :
    root.lease ℓ = some file := by
  unfold Root.read at h
  split at h
  · exact h
  · cases h

theorem SoundRoot.mem_issued (hs : SoundRoot pool root) (hfile : root.lease ℓ = some file) :
    ℓ ∈ root.issued := hs.issued ℓ (hs.runs ℓ file hfile)

@[simp]
theorem Process.goto_place {place : ProcessAt} : (process.goto place).place = place := rfl

theorem ProcessOk.closeToken {token : ℕ} (h : ProcessOk pool root p process)
    (htoken : process.token = some token) :
    (∀ q, q ≠ p → RootFrame root (root.setToken token none) q) ∧
      ∀ j, (root.setToken token none).token j = some p ↔ (none : Option ℕ) = some j := by
  refine ⟨fun q hq => .setToken ?_ nofun, fun j => ?_⟩
  · rw [(h.token token).mpr htoken]
    intro heq
    exact hq (Option.some.inj heq).symm
  · rw [setToken_none_iff, h.token j, htoken]
    constructor
    · rintro ⟨heq, hne⟩
      exact absurd (Option.some.inj heq).symm hne
    · intro heq
      cases heq

/-! ### Passes over the run directories -/

section

variable (hs : SoundRoot pool root)
include hs

theorem reclaimTurn_served {health : Bool} {todo : List ℕ}
    (h : ProcessOk pool root p (process.goto (.reclaim health (ℓ :: todo)))) :
    Served pool root p (reclaimTurn a process root health ℓ todo) := by
  have hstay : Served pool root p (root, process.goto (.reclaim health todo)) :=
    .stay hs h ⟨id, Iff.rfl, .inl, id, Iff.rfl, id⟩ Iff.rfl trivial
  unfold reclaimTurn
  split
  · exact hstay
  · rename_i file hread
    split
    · rename_i hdead
      have hfile := lease_of_read hread
      exact .stay hs h ⟨id, Iff.rfl, .inl, id, Iff.rfl, id⟩ Iff.rfl
        ⟨⟨hs.mem_issued hfile, hdead.2.2.1⟩, hfile, hdead.1⟩
    · exact hstay

/-- **A lease that is read keeps its index in what is found.** -/
theorem scanTurn_served {count : ℕ} {found todo : List ℕ}
    (h : ProcessOk pool root p (process.goto (.scan count found (ℓ :: todo)))) :
    Served pool root p (scanTurn a process root count found ℓ todo) := by
  obtain ⟨hcount, howned⟩ := h.found
  -- the lease that is passed over has no index
  have hpass : (∀ index, ¬ root.Owned ℓ index) →
      Served pool root p (root, process.goto (.scan count found todo)) := by
    intro hnone
    refine .stay hs h ⟨id, Iff.rfl, .inl, id, Iff.rfl, id⟩ Iff.rfl ⟨hcount, fun i index hi => ?_⟩
    rcases howned i index hi with hmem | hmem
    · exact .inl hmem
    · rcases List.mem_cons.mp hmem with rfl | hmem
      · exact absurd hi (hnone index)
      · exact .inr hmem
  unfold scanTurn
  split
  · rename_i hgone
    refine hpass fun index ⟨file, hfile, _⟩ => hgone ?_
    exact hs.runs ℓ file hfile
  · split
    · exact .stay hs h ⟨id, Iff.rfl, nofun, id, Iff.rfl, id⟩ Iff.rfl fun _ => (h.bare trivial).2
    · rename_i file hread
      have hfile := lease_of_read hread
      split
      · rename_i hreleased
        refine hpass fun index ⟨f, hf, hopen, _⟩ => hopen ?_
        rw [hfile, Option.some.injEq] at hf
        rw [← hf]
        exact hreleased
      · split
        · rename_i htoken
          refine hpass fun index ⟨f, hf, _, hindex⟩ => ?_
          rw [hfile, Option.some.injEq] at hf
          rw [← hf, htoken] at hindex
          cases hindex
        · rename_i index htoken
          refine .stay hs h ⟨id, Iff.rfl, .inl, id, Iff.rfl, id⟩ Iff.rfl
            ⟨hcount, fun i j hi => ?_⟩
          rcases howned i j hi with hmem | hmem
          · exact .inl (List.mem_cons_of_mem _ hmem)
          · rcases List.mem_cons.mp hmem with rfl | hmem
            · obtain ⟨f, hf, _, hj⟩ := hi
              rw [hfile, Option.some.injEq] at hf
              rw [← hf, htoken, Option.some.injEq] at hj
              rw [hj]
              exact .inl List.mem_cons_self
            · exact .inr hmem

/-! ### Grants -/

/-- **A token is taken** that no lease has. -/
theorem takeTurn_served {count index : ℕ} {found : List ℕ}
    (h : ProcessOk pool root p (process.goto (.take count found index))) :
    Served pool root p (takeTurn a p process root count found index) := by
  have hfound := h.found
  have hqueue := h.queue
  have hholder := h.holder
  have hcurrent := h.current trivial
  have hgranted := hcurrent.granted id
  obtain ⟨hbare, hslot⟩ := h.bare trivial
  obtain ⟨hcount, howned⟩ := hfound
  unfold takeTurn
  split
  · rename_i hindex
    split
    · rename_i hfree
      obtain ⟨hnot, htoken, _⟩ := hfree
      have hnone : ∀ ℓ, ¬ root.Owned ℓ index := fun ℓ hℓ => hnot (howned ℓ index hℓ)
      refine ⟨hs.takeToken (Nat.lt_of_lt_of_le hindex hcount) hnone, fun q hq => ?_, ?_⟩
      · refine .setToken (by rw [htoken]; exact nofun) fun heq => ?_
        exact hq (Option.some.inj heq).symm
      · refine ⟨hqueue, nofun, fun _ => hholder trivial, fun j => ?_, h.slotLock,
          fun hplace => absurd trivial hplace, nofun, fun _ => ⟨hcurrent.file, fun _ => ?_,
          fun hplace => absurd trivial hplace, hcurrent.status⟩, fun _ hplace => absurd trivial hplace,
          rfl, hslot, fun j hj ℓ => ?_⟩
        · by_cases hj : j = index
          · subst hj
            exact ⟨fun _ => rfl, fun _ => Function.update_self _ _ _⟩
          · have hother : ¬ root.token j = some p := by
              rw [h.token j, hbare]
              exact nofun
            constructor
            · intro hmine
              refine absurd ?_ hother
              rw [← hmine]
              exact (Function.update_of_ne hj _ _).symm
            · intro heq
              exact absurd (Option.some.inj heq).symm hj
        · exact ⟨hgranted.1.trans hbare, hgranted.2.trans hslot⟩
        · obtain rfl : index = j := Option.some.inj hj
          exact hnone ℓ
    · exact .stay hs h ⟨id, Iff.rfl, .inl, id, Iff.rfl, id⟩ Iff.rfl ⟨hcount, howned⟩
  · exact .stay hs h ⟨id, Iff.rfl, nofun, id, Iff.rfl, id⟩ Iff.rfl fun _ => hslot

theorem SoundRoot.free_of_usable {slot : Slot} (husable : root.usable slot = true) (ℓ : ℕ) :
    ¬ root.OwnedSlot ℓ slot := by
  intro hℓ
  have hmarker := hs.marker ℓ slot hℓ
  obtain ⟨file, hfile, hopen, _⟩ := hℓ
  unfold Root.usable at husable
  rw [hmarker] at husable
  dsimp only at husable
  rw [hfile] at husable
  exact hopen (of_decide_eq_true husable)

/-- **The lock of a slot is taken** that no lease has, or the token is closed. -/
theorem slotTurn_served {count index : ℕ}
    (h : ProcessOk pool root p (process.goto (.slot count index))) :
    Served pool root p (slotTurn a p process root count index) := by
  have hfound := h.found
  have hqueue := h.queue
  have hholder := h.holder
  have hcurrent := h.current trivial
  have hpending := hcurrent.pending trivial
  obtain ⟨hsome, hslot, hindex⟩ := hfound
  unfold slotTurn
  split
  · dsimp only
    split
    · rename_i hfree
      obtain ⟨hlock, _, husable, _⟩ := hfree
      have hnone := hs.free_of_usable husable
      refine ⟨hs.lockSlot hnone, fun q hq => .lockSlot hq hlock, ?_⟩
      refine ⟨hqueue, nofun, fun _ => hholder trivial, h.token, fun slot => ?_,
        fun hplace => absurd trivial hplace, nofun, fun _ => ⟨hcurrent.file, fun _ => hpending,
        fun hplace => absurd trivial hplace, hcurrent.status⟩, fun _ hplace => absurd trivial hplace,
        hsome, rfl, hindex, fun slot heq ℓ => ?_⟩
      · by_cases hs' : slot = ⟨process.repo, index⟩
        · subst hs'
          exact ⟨fun _ => rfl, fun _ => Function.update_self _ _ _⟩
        · have hother : ¬ root.slotLock slot = some p := by
            rw [h.slotLock slot, hslot]
            exact nofun
          constructor
          · intro hmine
            refine absurd ?_ hother
            rw [← hmine]
            exact (Function.update_of_ne hs' _ _).symm
          · intro heq
            exact absurd (Option.some.inj heq).symm hs'
      · have heq' : (⟨process.repo, index⟩ : Slot) = slot := Option.some.inj heq
        rw [← heq']
        exact hnone ℓ
    · exact .stay hs h ⟨id, Iff.rfl, .inl, id, Iff.rfl, id⟩ Iff.rfl ⟨hsome, hslot, hindex⟩
  · cases htoken : process.token with
    | none =>
      have hnone : (none : Option ℕ).isSome = true := htoken ▸ hsome
      cases hnone
    | some token =>
      obtain ⟨hothers, hclosed⟩ := h.closeToken htoken
      refine ⟨hs.closeToken, hothers, hqueue, nofun, fun _ => hholder trivial, hclosed, h.slotLock,
        fun hplace => absurd trivial hplace, nofun, fun _ => ⟨hcurrent.file, nofun,
        fun _ => ⟨hpending.1, hpending.2.trans hslot.symm⟩, hcurrent.status⟩, fun _ _ slot heq => ?_,
        fun _ => hslot⟩
      have heq' : none = some slot := hslot.symm.trans heq
      cases heq'

/-- **The marker is written.** -/
theorem markTurn_served {slot : Slot} (h : ProcessOk pool root p (process.goto .mark))
    (hslot : process.slot = some slot) :
    Served pool root p (root.mark slot (.leased p), process.goto .grant) := by
  have hfound := h.found
  have hqueue := h.queue
  have hholder := h.holder
  have hcurrent := h.current trivial
  have hpending := hcurrent.pending trivial
  obtain ⟨hsome, _, hindex, hfree⟩ := hfound
  refine ⟨hs.mark (hfree slot hslot), fun q hq => .mark fun _ hlock => ?_, ?_⟩
  · have hmine := (h.slotLock slot).mpr hslot
    rw [hlock] at hmine
    exact absurd (Option.some.inj hmine) hq
  · refine ⟨hqueue, nofun, fun _ => hholder trivial, h.token, h.slotLock,
      fun hplace => absurd trivial hplace, nofun, fun _ => ⟨hcurrent.file, fun _ => hpending,
      fun hplace => absurd trivial hplace, hcurrent.status⟩, fun _ _ slot' heq => ?_, hsome, ?_, hindex, hfree⟩
    · have heq' : process.slot = some slot' := heq
      rw [hslot, Option.some.injEq] at heq'
      rw [← heq']
      exact mark_self
    · show process.slot.isSome = true
      rw [hslot]
      rfl

/-- **The lease is admitted.** -/
theorem grantTurn_served (h : ProcessOk pool root p (process.goto .grant)) :
    Served pool root p (root.write p ⟨.admitted, process.token, process.slot, false⟩,
      { process with state := ⟨.admitted, process.token, process.slot, false⟩, place := .unlink }) := by
  have hfound := h.found
  have hqueue := h.queue
  have hholder := h.holder
  have hcurrent := h.current trivial
  have hmarked := h.marked trivial id
  obtain ⟨hsome, _, hindex, hfree⟩ := hfound
  obtain ⟨file, hfile, hopen, _⟩ := hcurrent.file
  refine ⟨hs.grant hfile (fun index htoken => ⟨(h.token index).mpr htoken, hindex index htoken⟩)
    fun slot hslot => ⟨(h.slotLock slot).mpr hslot, hmarked slot hslot, hfree slot hslot⟩,
    fun q hq => ?_, ?_⟩
  · exact .write hq hfile hopen (.inl ⟨rfl, (hholder trivial).2⟩) (.inl (hqueue.mpr trivial))
  · exact ⟨hqueue, nofun, fun _ => hholder trivial, h.token, h.slotLock,
      fun hplace => absurd trivial hplace, nofun,
      fun _ => ⟨⟨_, write_self, nofun, rfl, rfl⟩, nofun, fun _ => ⟨rfl, rfl⟩, nofun⟩,
      fun _ _ => hmarked, hsome⟩

/-- **`queue.lock` is closed** after an attempt. -/
theorem closeQueueTurn_served (h : ProcessOk pool root p (process.goto .closeQueue)) :
    Served pool root p
      (root.unlockQueue, process.goto (if process.token.isSome then .wait else .look)) := by
  cases htoken : process.token with
  | none =>
    exact .unlockQueue hs h trivial
      ⟨id, Iff.rfl, fun _ => .inr ⟨htoken, h.found htoken⟩, id, Iff.rfl, id⟩ id trivial
  | some token =>
    exact .unlockQueue hs h trivial ⟨id, Iff.rfl, .inl, id, Iff.rfl, id⟩ id trivial

/-! ### An admitted lease -/

/-- **The holder writes its lease** from memory. -/
theorem memoryTurn_served {state : LeaseFile} {place : ProcessAt}
    (h : ProcessOk pool root p process) (hcurrent : process.place.current p)
    (hgranted : ¬ process.place.pending) (hmarked : ¬ process.place.unmarked)
    (hopen : state.status ≠ .released) (htoken : state.token = process.state.token)
    (hslot : state.slot = process.state.slot) (hmoves : Moves p process process.place place)
    (hissued : ¬ place.unissued) (hlocked : place.locked ↔ process.place.locked)
    (hfound : ∀ (root' : Root) (process' : Process), process'.Found pool root' p place) :
    Served pool root p (root.write p state, { process with state := state, place := place }) := by
  have hlease := h.current hcurrent
  obtain ⟨file, hfile, hbefore, hindex, hplace⟩ := hlease.file
  have hheld := h.holder (ProcessAt.holds_of_current hcurrent)
  have hkeep : KeepsGrant file state := fun _ => ⟨htoken.trans hindex.symm, hslot.trans hplace.symm⟩
  refine ⟨hs.write hfile hbefore hkeep, fun q hq => ?_, ?_⟩
  · exact .write hq hfile hbefore (.inl ⟨rfl, hheld.2⟩) (.inr hkeep)
  · exact ⟨h.queue.trans hlocked.symm, fun hbad => absurd hbad hissued, fun _ => hheld, h.token,
      h.slotLock, fun hfree => h.free fun hheld => hfree (hmoves.holds.mpr hheld),
      fun hbare => (hmoves.bare hbare).elim h.bare id,
      fun _ => ⟨⟨state, write_self, hopen, rfl, rfl⟩,
        fun hpending => absurd (hmoves.pending.mp hpending) hgranted,
        fun _ => ⟨htoken.trans (hlease.granted hgranted).1, hslot.trans (hlease.granted hgranted).2⟩,
        hopen⟩,
      fun _ _ => h.marked hcurrent hmarked, hfound _ _⟩

/-! ### Releases -/

/-- **A release ends.** -/
theorem endRelease_served {before : ProcessAt}
    (h : ProcessOk pool root p (process.goto before)) (hlocked : before.locked)
    (hholds : before.holds p ↔ ℓ = p) (hpending : ¬ before.pending)
    (hunmarked : ¬ before.unmarked) (hcommand : ℓ ≠ p → root.commandLock ℓ = some p) :
    Served pool root p (endRelease p process root.unlockQueue ℓ) := by
  unfold endRelease
  split
  · rename_i hmine
    refine .unlockQueue hs h hlocked ⟨nofun, ⟨fun _ => hholds.mpr hmine, fun _ => trivial⟩,
      nofun, nofun, ⟨nofun, hpending⟩, fun hbad => absurd hbad hunmarked⟩ id trivial
  · rename_i hother
    refine .trans (fun q hq => .unlockQueue hq (h.queue.mpr hlocked)) ?_
    have hsame : SameFiles root (root.unlockQueue.setCommandLock ℓ none) :=
      ⟨rfl, rfl, rfl, rfl, rfl, rfl, rfl⟩
    refine ⟨hs.same hsame, fun q hq => .setCommandLock fun heq => ?_, ?_⟩
    · have hmine : root.commandLock ℓ = some q := heq
      rw [hcommand hother] at hmine
      exact hq (Option.some.inj hmine).symm
    · exact h.move hsame.own ⟨nofun, ⟨nofun, fun hheld => hother (hholds.mp hheld)⟩, nofun, nofun,
        ⟨nofun, hpending⟩, fun hbad => absurd hbad hunmarked⟩ ⟨nofun, nofun⟩ trivial

/-- **The lease starts to drain.** -/
theorem drainTurn_served (h : ProcessOk pool root p (process.goto (.drain ℓ))) :
    Served pool root p (drainTurn a p process root ℓ) := by
  have hfound := h.found
  have hend : Served pool root p (endRelease p process root.unlockQueue ℓ) :=
    endRelease_served hs h trivial Iff.rfl id id fun hne => (hfound hne).1
  unfold drainTurn
  split
  · exact hend
  · rename_i file hread
    have hfile := lease_of_read hread
    split
    · exact hend
    · rename_i hkept
      have hopen : file.status ≠ .released := by
        intro hreleased
        by_cases hmine : ℓ = p
        · subst hmine
          obtain ⟨f, hf, hopen, _⟩ := (h.current rfl).file
          cases hfile.symm.trans hf
          exact hopen hreleased
        · exact hkept ⟨hmine, hreleased⟩
      have hmine := h.queue.mpr trivial
      have hwriter : Writer root p ℓ file := by
        by_cases hown : ℓ = p
        · exact .inl ⟨hown, (h.holder hown).2⟩
        · exact .inr ⟨(hfound hown).2, .inl (hfound hown).1, .inl hmine⟩
      dsimp only
      generalize hfile' : ({ file with
        status := .draining
        launched := file.launched || (ℓ = p && process.state.launched) } : LeaseFile) = file'
      have hstatus : file'.status = .draining := by rw [← hfile']
      have hkeep : KeepsGrant file file' := by
        intro _
        rw [← hfile']
        exact ⟨rfl, rfl⟩
      have hwritten : Served pool root p (root.write ℓ file', process.goto (.drain ℓ)) := by
        exact .write hs h hfile hopen hwriter hkeep (fun _ _ => by rw [hstatus]; exact nofun)
          ⟨id, Iff.rfl, .inl, id, Iff.rfl, id⟩ Iff.rfl hfound
      have hclosed : Served pool (root.write ℓ file') p ((root.write ℓ file').unlockQueue,
          (process.goto (.drain ℓ)).goto (.clear ℓ)) :=
        .unlockQueue hwritten.sound hwritten.own trivial ⟨id, Iff.rfl, .inl, id, Iff.rfl, id⟩ id
          fun hne => ⟨(hfound hne).1, (hfound hne).2, file', write_self, hstatus⟩
      exact .trans hwritten.others hclosed

end

theorem writer_of_draining {before : ProcessAt} (h : ProcessOk pool root p (process.goto before))
    (hfile : root.lease ℓ = some file) (hholds : ℓ = p → before.current p)
    (hfound : ℓ ≠ p → root.commandLock ℓ = some p ∧ root.Dead ℓ ∧
      ∃ file, root.lease ℓ = some file ∧ file.status = .draining) :
    file.status ≠ .released ∧ Writer root p ℓ file ∧ (ℓ ≠ p → file.status = .draining) := by
  by_cases hmine : ℓ = p
  · obtain ⟨f, hf, hopen, _⟩ := (h.current (hholds hmine)).file
    rw [← hmine] at hf
    cases hfile.symm.trans hf
    exact ⟨hopen, .inl ⟨hmine, (h.holder (ProcessAt.holds_of_current (hholds hmine))).2⟩,
      fun hne => absurd hmine hne⟩
  · obtain ⟨hcommand, hdead, f, hf, hstatus⟩ := hfound hmine
    cases hfile.symm.trans hf
    refine ⟨?_, .inr ⟨hdead, .inl hcommand, .inr hstatus⟩, fun _ => hstatus⟩
    rw [hstatus]
    exact nofun

section

variable (hs : SoundRoot pool root)
include hs

/-- **The tree is cleared**, and what is found is added to the lease. -/
theorem clearTurn_served (h : ProcessOk pool root p (process.goto (.clear ℓ))) :
    Served pool root p (clearTurn a process root ℓ) := by
  have hfound := h.found
  -- both places that follow rely on the same
  have hgoes : ∀ root', (∀ {place}, Moves p process (.clear ℓ) place →
      (place.locked ↔ False) → (process.goto place).Found pool root' p place →
      Served pool root p (root', process.goto place)) →
      (ℓ ≠ p → root'.commandLock ℓ = some p ∧ root'.Dead ℓ ∧
        ∃ file, root'.lease ℓ = some file ∧ file.status = .draining) →
      Served pool root p
        (root', process.goto (if a.go then .settleLock ℓ a.ok else .clear ℓ)) := by
    intro root' hserve hfound'
    split
    · exact hserve ⟨id, Iff.rfl, .inl, id, Iff.rfl, id⟩ Iff.rfl hfound'
    · exact hserve ⟨id, Iff.rfl, .inl, id, Iff.rfl, id⟩ Iff.rfl hfound'
  unfold clearTurn
  dsimp only
  split
  · exact hgoes root (fun hmoves hlocked hf => .stay hs h hmoves hlocked hf) hfound
  · rename_i file hread
    have hfile := lease_of_read hread
    obtain ⟨hopen, hwriter, hdraining⟩ := writer_of_draining h hfile id hfound
    refine hgoes _ (fun hmoves hlocked hf => .write hs h hfile hopen hwriter (fun _ => ⟨rfl, rfl⟩)
      (fun _ _ => hopen) hmoves hlocked hf) fun hne => ?_
    exact ⟨(hfound hne).1, (hfound hne).2.1, _, write_self, hdraining hne⟩

/-- **The lease is kept, or its release begins.** -/
theorem settleTurn_served {ok : Bool}
    (h : ProcessOk pool root p (process.goto (.settle ℓ ok))) :
    Served pool root p (settleTurn a p process root ℓ ok) := by
  have hfound := h.found
  have hend : Served pool root p (endRelease p process root.unlockQueue ℓ) :=
    endRelease_served hs h trivial Iff.rfl id id fun hne => (hfound hne).1
  unfold settleTurn
  split
  · exact hend
  · rename_i file hread
    have hfile := lease_of_read hread
    obtain ⟨hopen, hwriter, hdraining⟩ := writer_of_draining h hfile id hfound
    split
    · rename_i hreleased
      exact absurd hreleased hopen
    · split
      · refine .stay hs h ⟨id, Iff.rfl, .inl, id, Iff.rfl, id⟩ Iff.rfl ?_
        unfold Process.Found
        dsimp only
        split
        · exact ⟨hfile, hopen⟩
        · rename_i hne
          exact ⟨(hfound hne).1, (hfound hne).2.1, hfile, hdraining hne⟩
      · exact .write hs h hfile hopen hwriter (fun _ => ⟨rfl, rfl⟩) nofun
          ⟨id, Iff.rfl, .inl, nofun, Iff.rfl, id⟩ Iff.rfl fun hne => (hfound hne).1

/-- **The lease is released.** -/
theorem markReleasedTurn_served {after : After}
    (h : ProcessOk pool root p (process.goto (.markReleased ℓ file after))) :
    Served pool root p (root.write ℓ { file with status := .released },
      process.goto (.freeMarker ℓ file after)) := by
  have hfound := h.found
  have hqueue := h.queue.mpr trivial
  have hkeep : KeepsGrant file { file with status := .released } := fun hbad => absurd rfl hbad
  have hover : ℓ ∈ root.issued → (root.write ℓ { file with status := .released }).Over ℓ := by
    refine fun hissued => ⟨hissued, fun f hf => ?_⟩
    rw [write_self, Option.some.injEq] at hf
    rw [← hf]
  cases after with
  | reclaim health todo =>
    obtain ⟨hdead, hfile, hadmitted⟩ := hfound
    have hopen : file.status ≠ .released := by
      rw [hadmitted]
      exact (by decide)
    refine .write hs h hfile hopen (.inr ⟨hdead, .inr hadmitted, .inl hqueue⟩) hkeep
      (fun hcurrent hmine => ?_) ⟨id, Iff.rfl, .inl, id, Iff.rfl, id⟩ Iff.rfl
      ⟨hdead, hover hdead.1⟩
    have hheld := h.holder hcurrent
    rw [← hmine, hdead.2] at hheld
    exact absurd hheld.2 nofun
  | settled =>
    have hmoves : Moves p process (.markReleased ℓ file .settled) (.freeMarker ℓ file .settled) :=
      ⟨id, Iff.rfl, .inl, nofun, Iff.rfl, id⟩
    change if ℓ = p then _ else _ at hfound
    split at hfound
    · rename_i hmine
      obtain ⟨hfile, hopen⟩ := hfound
      have hheld := h.holder hmine
      refine .write hs h hfile hopen (.inl ⟨hmine, hheld.2⟩) hkeep nofun hmoves Iff.rfl
        ⟨hover ?_, .inl hmine⟩
      rw [hmine]
      exact hheld.1
    · obtain ⟨hcommand, hdead, hfile, hdraining⟩ := hfound
      have hopen : file.status ≠ .released := by
        rw [hdraining]
        exact nofun
      exact .write hs h hfile hopen (.inr ⟨hdead, .inl hcommand, .inl hqueue⟩) hkeep nofun hmoves
        Iff.rfl ⟨hover hdead.1, .inr ⟨hcommand, hdead⟩⟩

/-- **The marker is freed**, and the release goes on. -/
theorem freeMarkerTurn_served {after : After}
    (h : ProcessOk pool root p (process.goto (.freeMarker ℓ file after))) :
    Served pool root p (processTurn pool a p (process.goto (.freeMarker ℓ file after)) root) := by
  have hfound := h.found
  unfold processTurn
  dsimp only [Process.goto_place]
  generalize a.readable = readable
  have hsame : (root.freeSlotMarker ℓ file readable).queueLock = root.queueLock ∧
      (root.freeSlotMarker ℓ file readable).commandLock = root.commandLock := by
    unfold Root.freeSlotMarker
    split
    · exact ⟨rfl, rfl⟩
    · split
      · exact ⟨rfl, rfl⟩
      · exact ⟨rfl, rfl⟩
  have hown : ∀ {current : Prop}, (current → ℓ ≠ p) →
      OwnFrame root (root.freeSlotMarker ℓ file readable) p current := by
    intro current hother
    unfold Root.freeSlotMarker
    split
    · exact SameFiles.refl.own
    · rename_i slot _
      split
      · rename_i hfree
        rw [Bool.and_eq_true, decide_eq_true_eq] at hfree
        refine ⟨rfl, rfl, rfl, rfl, fun _ f hf hopen => ⟨f, hf, hopen, rfl, rfl⟩, ?_⟩
        intro hcurrent slot' hslot'
        have hne : slot' ≠ slot := by
          rintro rfl
          rw [hfree.2, Option.some.injEq, Marker.leased.injEq] at hslot'
          exact hother hcurrent hslot'
        rw [mark_of_ne hne]
        exact hslot'
      · exact SameFiles.refl.own
  cases after with
  | reclaim health todo =>
    obtain ⟨hdead, hover⟩ := hfound
    have hne : (ProcessAt.reclaim health todo).current p → ℓ ≠ p := by
      intro hcurrent hmine
      have hheld := h.holder hcurrent
      rw [← hmine, hdead.2] at hheld
      exact absurd hheld.2 nofun
    refine ⟨hs.freeSlotMarker hover, fun q hq => .freeSlotMarker hq (.inr hdead), ?_⟩
    exact h.move (hown hne) ⟨id, Iff.rfl, .inl, id, Iff.rfl, id⟩ (hsame.1 ▸ h.queue) trivial
  | settled =>
    obtain ⟨hover, hlease⟩ := hfound
    refine ⟨hs.freeSlotMarker hover,
      fun q hq => .freeSlotMarker hq (hlease.imp id fun hboth => hboth.2), ?_⟩
    refine h.move (hown nofun) ⟨id, Iff.rfl, .inl, nofun, Iff.rfl, id⟩ (hsame.1 ▸ h.queue)
      fun hne => ?_
    rw [hsame.2]
    exact (hlease.resolve_left hne).1

/-! ### Beginnings and ends -/

/-- **A lease is created**, with its holder. -/
theorem createTurn_served (h : ProcessOk pool root p (process.goto .create)) :
    Served pool root p (processTurn pool a p (process.goto .create) root) := by
  have hqueue := h.queue
  obtain ⟨hfresh, hidle⟩ := h.unissued trivial
  have hbare : process.token = none ∧ process.slot = none := h.free id
  have hstate : process.state = ⟨.queued, none, none, false⟩ := hidle
  have hnone : root.lease p = none := by
    cases hlease : root.lease p with
    | none => rfl
    | some file => exact absurd (hs.mem_issued hlease) hfresh
  unfold processTurn
  dsimp only [Process.goto_place]
  -- a new lease owns nothing
  have howned : ∀ {ℓ index}, (root.write p process.state).Owned ℓ index → root.Owned ℓ index := by
    intro ℓ index hℓ
    rcases owned_write hℓ with hbefore | ⟨_, _, hindex⟩
    · exact hbefore
    · rw [hstate] at hindex
      cases hindex
  have hslots : ∀ {ℓ slot}, (root.write p process.state).OwnedSlot ℓ slot →
      root.OwnedSlot ℓ slot := by
    intro ℓ slot hℓ
    rcases ownedSlot_write hℓ with hbefore | ⟨_, _, hindex⟩
    · exact hbefore
    · rw [hstate] at hindex
      cases hindex
  refine ⟨?_, fun q hq => ?_, ?_⟩
  · refine ⟨fun i j index hi hj => hs.owner i j index (howned hi) (howned hj),
      fun i index q hi hq => hs.lock i index q (howned hi) hq,
      fun i index hi => hs.bound i index (howned hi), hs.lockBound,
      fun i slot hi => hs.marker i slot (hslots hi),
      fun i slot q hi hq => hs.slotLock i slot q (hslots hi) hq, fun i f hf => ?_, fun i hi => ?_, ?_⟩
    · by_cases hi : i = p
      · rw [hi]
        exact List.mem_append_right _ List.mem_cons_self
      · refine List.mem_append_left _ (hs.runs i f ?_)
        rw [← hf]
        exact (write_of_ne hi).symm
    · rcases List.mem_append.mp hi with hmem | hmem
      · exact List.mem_cons_of_mem _ (hs.issued i hmem)
      · rw [List.mem_singleton.mp hmem]
        exact List.mem_cons_self
    · refine List.nodup_append.mpr ⟨hs.nodup, List.nodup_singleton _, fun i hi j hj heq => ?_⟩
      rw [List.mem_singleton.mp hj] at heq
      rw [heq] at hi
      exact hfresh (hs.issued p hi)
  · refine ⟨Iff.rfl, fun ℓ hℓ => List.mem_cons_of_mem _ hℓ, fun hfree hmem => ?_,
      Function.update_of_ne hq _ _, fun ℓ hdead => ⟨List.mem_cons_of_mem _ hdead.1, ?_⟩,
      fun _ => Iff.rfl, fun _ => Iff.rfl, fun _ => id, fun _ => write_of_ne hq, ?_, ?_, ?_,
      fun _ ℓ index => howned, fun _ ℓ slot => hslots, fun _ _ _ => id⟩
    · rcases List.mem_cons.mp hmem with heq | hbefore
      · exact hq heq
      · exact hfree hbefore
    · have hne : ℓ ≠ p := by
        rintro rfl
        exact hfresh hdead.1
      show Function.update root.holderLock p true ℓ = false
      rw [Function.update_of_ne hne]
      exact hdead.2
    · intro ℓ f _ hdead hf _
      have hne : ℓ ≠ p := by
        rintro rfl
        exact hfresh hdead.1
      exact (write_of_ne hne).trans hf
    · intro ℓ f _ hdead hf _
      have hne : ℓ ≠ p := by
        rintro rfl
        exact hfresh hdead.1
      exact (write_of_ne hne).trans hf
    · intro ℓ hover
      have hne : ℓ ≠ p := by
        rintro rfl
        exact hfresh hover.1
      refine ⟨List.mem_cons_of_mem _ hover.1, fun f hf => hover.2 f ?_⟩
      rw [← hf]
      exact (write_of_ne hne).symm
  · refine ⟨hqueue, nofun, fun _ => ⟨List.mem_cons_self, Function.update_self _ _ _⟩, h.token,
      h.slotLock, fun hbad => absurd trivial hbad, fun _ => hbare,
      fun _ => ⟨⟨process.state, write_self, ?_, rfl, rfl⟩, nofun, fun _ => ⟨?_, ?_⟩, ?_⟩,
      fun _ _ slot heq => ?_, trivial⟩
    · rw [hstate]
      exact nofun
    · show process.state.token = process.token
      rw [hstate, hbare.1]
    · show process.state.slot = process.slot
      rw [hstate, hbare.2]
    · show process.state.status ≠ .released
      rw [hstate]
      exact nofun
    · have heq' : process.slot = some slot := heq
      rw [hbare.2] at heq'
      cases heq'

/-- **The locks of a process go with it.** -/
theorem drop_served :
    Served pool root p
      (root.drop p, { process with token := none, slot := none, place := .gone }) := by
  refine ⟨hs.drop, fun q hq => .drop hq, ⟨?_, nofun, nofun, fun index => ?_, fun slot => ?_,
    fun _ => ⟨rfl, rfl⟩, nofun, nofun, nofun, trivial⟩⟩
  · exact ⟨fun hmine => absurd rfl (dropped.mp hmine).2, nofun⟩
  · exact ⟨fun hmine => absurd rfl (dropped.mp hmine).2, nofun⟩
  · exact ⟨fun hmine => absurd rfl (dropped.mp hmine).2, nofun⟩

/-- **The token is closed.** -/
theorem closeTokenTurn_served {token : ℕ}
    (h : ProcessOk pool root p (process.goto .closeToken))
    (htoken : process.token = some token) : Served pool root p
      (root.setToken token none, { process with token := none, place := .exit }) := by
  have hqueue := h.queue
  have hholder := h.holder
  obtain ⟨hothers, hclosed⟩ := h.closeToken htoken
  exact ⟨hs.closeToken, hothers, hqueue, nofun, fun _ => hholder trivial, hclosed, h.slotLock,
    fun hbad => absurd trivial hbad, nofun, nofun, nofun, trivial⟩

/-- **The body of a released lease is collected.** -/
theorem rmtreeTurn_served (h : ProcessOk pool root p (process.goto (.rmtree ℓ))) :
    Served pool root p (processTurn pool a p (process.goto (.rmtree ℓ)) root) := by
  have hqueue := h.queue
  have hfound := h.found
  have hfree := h.free
  obtain ⟨hdead, hover⟩ := hfound
  unfold processTurn
  dsimp only [Process.goto_place]
  have hlease : ∀ {i f}, Function.update root.lease ℓ none i = some f →
      i ≠ ℓ ∧ root.lease i = some f := by
    intro i f hf
    by_cases hi : i = ℓ
    · rw [hi, Function.update_self] at hf
      cases hf
    · rw [Function.update_of_ne hi] at hf
      exact ⟨hi, hf⟩
  have hkept : ∀ {i f}, root.lease i = some f → f.status ≠ .released →
      Function.update root.lease ℓ none i = some f := by
    intro i f hf hopen
    have hne : i ≠ ℓ := by
      rintro rfl
      exact hopen (hover.2 f hf)
    rw [Function.update_of_ne hne]
    exact hf
  have howned : ∀ {root' : Root}, root'.lease = Function.update root.lease ℓ none →
      ∀ i index, root'.Owned i index → root.Owned i index := by
    intro root' heq i index ⟨f, hf, hrest⟩
    rw [heq] at hf
    exact ⟨f, (hlease hf).2, hrest⟩
  have hslots : ∀ {root' : Root}, root'.lease = Function.update root.lease ℓ none →
      ∀ i slot, root'.OwnedSlot i slot → root.OwnedSlot i slot := by
    intro root' heq i slot ⟨f, hf, hrest⟩
    rw [heq] at hf
    exact ⟨f, (hlease hf).2, hrest⟩
  refine ⟨⟨fun i j index hi hj => hs.owner i j index (howned rfl _ _ hi) (howned rfl _ _ hj),
    fun i index q hi hq => hs.lock i index q (howned rfl _ _ hi) hq,
    fun i index hi => hs.bound i index (howned rfl _ _ hi), hs.lockBound,
    fun i slot hi => hs.marker i slot (hslots rfl _ _ hi),
    fun i slot q hi hq => hs.slotLock i slot q (hslots rfl _ _ hi) hq, fun i f hf => ?_,
    fun i hi => hs.issued i ?_, ?_⟩, fun q hq => ?_, ?_⟩
  · obtain ⟨hne, hf'⟩ := hlease hf
    have hmem := hs.runs i f hf'
    dsimp only
    split
    · exact (List.mem_erase_of_ne hne).mpr hmem
    · exact hmem
  · dsimp only at hi
    split at hi
    · exact List.mem_of_mem_erase hi
    · exact hi
  · dsimp only
    split
    · exact hs.nodup.erase ℓ
    · exact hs.nodup
  · refine ⟨Iff.rfl, fun _ => id, id, rfl, fun _ => id, fun _ => Iff.rfl, fun _ => Iff.rfl,
      fun _ => id, fun hheld => ?_, fun i f _ _ hf hstatus => hkept hf ?_,
      fun i f _ _ hf hstatus => hkept hf ?_, fun i hi => ⟨hi.1, fun f hf => hi.2 f (hlease hf).2⟩,
      fun _ => howned rfl, fun _ => hslots rfl, fun _ _ _ => id⟩
    · have hne : q ≠ ℓ := by
        rintro rfl
        rw [hdead.2] at hheld
        cases hheld
      exact Function.update_of_ne hne _ _
    · rw [hstatus]
      exact nofun
    · rw [hstatus]
      exact nofun
  · exact ⟨hqueue, nofun, nofun, h.token, h.slotLock, fun _ => hfree id, nofun, nofun, nofun,
      trivial⟩

/-- **A request finds a lease without its holder.** -/
theorem finishTurn_served (h : ProcessOk pool root p (process.goto (.finish ℓ))) :
    Served pool root p (processTurn pool a p (process.goto (.finish ℓ)) root) := by
  have hfound := h.found
  have hqueue := h.queue
  unfold processTurn
  dsimp only [Process.goto_place]
  split
  · rename_i hdead
    obtain ⟨hfree, hsome, hheld, _⟩ := hdead
    obtain ⟨file, hread⟩ := Option.isSome_iff_exists.mp hsome
    have hissued := hs.mem_issued (lease_of_read hread)
    have hsame : SameFiles root (root.setCommandLock ℓ (some p)) :=
      ⟨rfl, rfl, rfl, rfl, rfl, rfl, rfl⟩
    refine ⟨hs.same hsame, fun q hq => .setCommandLock (by rw [hfree]; exact nofun), ?_⟩
    refine h.move hsame.own ?_ hqueue fun _ => ⟨Function.update_self _ _ _, hissued, hheld⟩
    exact ⟨nofun, ⟨fun hmine => absurd hmine hfound, nofun⟩, nofun,
      fun hmine => absurd hmine hfound, Iff.rfl, nofun⟩
  · exact .stay hs h ⟨id, Iff.rfl, .inl, id, Iff.rfl, id⟩ Iff.rfl trivial

/-- **A released lease is chosen to be collected.** -/
theorem collectTurn_served (h : ProcessOk pool root p (process.goto (.collect ℓ))) :
    Served pool root p (processTurn pool a p (process.goto (.collect ℓ)) root) := by
  have hgone : Served pool root p (root, process.goto .gone) :=
    .stay hs h ⟨id, Iff.rfl, .inl, id, Iff.rfl, id⟩ Iff.rfl trivial
  unfold processTurn
  dsimp only [Process.goto_place]
  split
  · exact hgone
  · rename_i file hread
    have hfile := lease_of_read hread
    split
    · rename_i hreleased
      have hissued := hs.mem_issued hfile
      refine .stay hs h ⟨id, Iff.rfl, .inl, id, Iff.rfl, id⟩ Iff.rfl
        ⟨⟨hissued, hreleased.2.1⟩, hissued, fun f hf => ?_⟩
      cases hfile.symm.trans hf
      exact hreleased.1
    · exact hgone

end

end Turns

/-! ### Every turn -/

/-- **A turn of any process.** -/
theorem processTurn_served {pool p : ℕ} {root : Root} {process : Process} {a : RootAnswer}
    (hs : SoundRoot pool root) (h : ProcessOk pool root p process) :
    Served pool root p (processTurn pool a p process root) := by
  suffices hgoto : ∀ place, ProcessOk pool root p (process.goto place) →
      Served pool root p (processTurn pool a p (process.goto place) root) from
    hgoto process.place h
  intro place h
  cases place with
  | idle => exact .refl hs h
  | gone => exact .refl hs h
  | enqueue =>
    unfold processTurn
    dsimp only [Process.goto_place]
    split
    · rename_i hfree
      exact .lockQueue hs h hfree ⟨id, Iff.rfl, .inl, id, Iff.rfl, id⟩ trivial trivial
    · exact .refl hs h
  | create => exact createTurn_served hs h
  | fork => exact .unlockQueue hs h trivial ⟨id, Iff.rfl, .inl, id, Iff.rfl, id⟩ id trivial
  | look =>
    unfold processTurn
    dsimp only [Process.goto_place]
    split
    · exact .stay hs h ⟨id, Iff.rfl, nofun, id, Iff.rfl, id⟩ Iff.rfl trivial
    · exact .stay hs h ⟨id, Iff.rfl, .inl, id, Iff.rfl, id⟩ Iff.rfl trivial
  | queue =>
    unfold processTurn
    dsimp only [Process.goto_place]
    split
    · rename_i hfree
      exact .lockQueue hs h hfree ⟨id, ⟨fun _ => trivial, fun _ => rfl⟩, .inl, fun _ => trivial,
        Iff.rfl, id⟩ trivial trivial
    · exact .refl hs h
  | reclaim health todo =>
    cases todo with
    | cons ℓ todo =>
      unfold processTurn
      exact reclaimTurn_served hs h
    | nil =>
      cases health with
      | true =>
        exact .unlockQueue hs h trivial ⟨id, ⟨nofun, nofun⟩, nofun, nofun, Iff.rfl, id⟩ id
          trivial
      | false =>
        exact .stay hs h ⟨id, ⟨fun _ => rfl, fun _ => trivial⟩, .inl, fun _ => rfl, Iff.rfl,
          id⟩ Iff.rfl trivial
  | tickets =>
    unfold processTurn
    dsimp only [Process.goto_place]
    split
    · refine .same hs h ⟨rfl, rfl, rfl, rfl, rfl, rfl, rfl⟩ rfl rfl
        ⟨id, Iff.rfl, .inl, id, Iff.rfl, id⟩ Iff.rfl ⟨Nat.min_le_right _ _, ?_⟩
      rintro ℓ index ⟨file, hfile, _⟩
      exact .inr (hs.runs ℓ file hfile)
    · exact .same hs h ⟨rfl, rfl, rfl, rfl, rfl, rfl, rfl⟩ rfl rfl
        ⟨id, Iff.rfl, nofun, id, Iff.rfl, id⟩ Iff.rfl fun _ => (h.bare trivial).2
  | scan count found todo =>
    cases todo with
    | cons ℓ todo =>
      unfold processTurn
      exact scanTurn_served hs h
    | nil =>
      refine .stay hs h ⟨id, Iff.rfl, .inl, id, Iff.rfl, id⟩ Iff.rfl
        ⟨h.found.1, fun ℓ index hℓ => ?_⟩
      rcases h.found.2 ℓ index hℓ with hmem | hmem
      · exact hmem
      · cases hmem
  | take count found index =>
    unfold processTurn
    exact takeTurn_served hs h
  | slot count index =>
    unfold processTurn
    exact slotTurn_served hs h
  | mark =>
    obtain ⟨_, repo, state, token, slot⟩ := process
    cases slot with
    | none => exact absurd h.found.2.1 nofun
    | some slot => exact markTurn_served hs h rfl
  | grant => exact grantTurn_served hs h
  | unlink =>
    refine .same hs h ⟨rfl, rfl, rfl, rfl, rfl, rfl, rfl⟩ rfl rfl
      ⟨id, Iff.rfl, .inl, id, Iff.rfl, id⟩ Iff.rfl fun hnone => ?_
    have hsome : process.token.isSome = true := h.found
    rw [show process.token = none from hnone] at hsome
    cases hsome
  | closeQueue => exact closeQueueTurn_served hs h
  | wait =>
    unfold processTurn
    dsimp only [Process.goto_place]
    split
    · exact .same hs h ⟨rfl, rfl, rfl, rfl, rfl, rfl, rfl⟩ rfl rfl
        ⟨id, Iff.rfl, .inl, id, Iff.rfl, id⟩ Iff.rfl trivial
    · split
      · exact .same hs h ⟨rfl, rfl, rfl, rfl, rfl, rfl, rfl⟩ rfl rfl
          ⟨id, Iff.rfl, .inl, id, Iff.rfl, id⟩ Iff.rfl trivial
      · exact .same hs h ⟨rfl, rfl, rfl, rfl, rfl, rfl, rfl⟩ rfl rfl
          ⟨id, Iff.rfl, .inl, id, Iff.rfl, id⟩ Iff.rfl trivial
  | running =>
    exact memoryTurn_served hs h trivial id id nofun rfl rfl
      ⟨id, Iff.rfl, .inl, id, Iff.rfl, id⟩ id Iff.rfl fun _ _ => trivial
  | work =>
    unfold processTurn
    dsimp only [Process.goto_place]
    split
    · exact memoryTurn_served hs h trivial id id (h.current trivial).status rfl rfl
        ⟨id, Iff.rfl, .inl, id, Iff.rfl, id⟩ id Iff.rfl fun _ _ => trivial
    · exact memoryTurn_served hs h trivial id id (h.current trivial).status rfl rfl
        ⟨id, Iff.rfl, .inl, id, Iff.rfl, id⟩ id Iff.rfl fun _ _ => trivial
  | leave =>
    unfold processTurn
    dsimp only [Process.goto_place]
    split
    · exact .same hs h ⟨rfl, rfl, rfl, rfl, rfl, rfl, rfl⟩ rfl rfl
        ⟨id, Iff.rfl, .inl, id, Iff.rfl, id⟩ Iff.rfl trivial
    · exact .same hs h ⟨rfl, rfl, rfl, rfl, rfl, rfl, rfl⟩ rfl rfl
        ⟨id, ⟨fun _ => trivial, fun _ => rfl⟩, .inl, fun _ => trivial, Iff.rfl, id⟩ Iff.rfl
        fun hne => absurd rfl hne
  | releaseUnadmitted =>
    obtain ⟨file, hfile, hopen, _⟩ := (h.current trivial).file
    exact .write hs h hfile hopen (.inl ⟨rfl, (h.holder trivial).2⟩)
      (fun hbad => absurd rfl hbad) nofun ⟨id, Iff.rfl, .inl, nofun, Iff.rfl, id⟩ Iff.rfl trivial
  | drainLock ℓ =>
    unfold processTurn
    dsimp only [Process.goto_place]
    split
    · rename_i hfree
      exact .lockQueue hs h hfree ⟨id, Iff.rfl, .inl, id, Iff.rfl, id⟩ trivial h.found
    · exact .refl hs h
  | drain ℓ =>
    unfold processTurn
    exact drainTurn_served hs h
  | clear ℓ =>
    unfold processTurn
    exact clearTurn_served hs h
  | settleLock ℓ ok =>
    unfold processTurn
    dsimp only [Process.goto_place]
    split
    · rename_i hfree
      exact .lockQueue hs h hfree ⟨id, Iff.rfl, .inl, id, Iff.rfl, id⟩ trivial h.found
    · exact .refl hs h
  | settle ℓ ok =>
    unfold processTurn
    exact settleTurn_served hs h
  | closeSettled ℓ => exact endRelease_served hs h trivial Iff.rfl id id h.found
  | closeToken =>
    obtain ⟨_, repo, state, token, slot⟩ := process
    cases token with
    | none => exact .stay hs h ⟨id, Iff.rfl, .inl, id, Iff.rfl, id⟩ Iff.rfl trivial
    | some token => exact closeTokenTurn_served hs h rfl
  | exit => exact drop_served hs
  | markReleased ℓ file after => exact markReleasedTurn_served hs h
  | freeMarker ℓ file after => exact freeMarkerTurn_served hs h
  | finish ℓ => exact finishTurn_served hs h
  | collect ℓ => exact collectTurn_served hs h
  | rmtree ℓ => exact rmtreeTurn_served hs h
  | health =>
    unfold processTurn
    dsimp only [Process.goto_place]
    split
    · rename_i hfree
      exact .lockQueue hs h hfree ⟨id, ⟨nofun, nofun⟩, .inl, nofun, Iff.rfl, id⟩ trivial trivial
    · exact .refl hs h

end GoalFlight.RemoteCi
