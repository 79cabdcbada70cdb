import GoalFlight.Wake.Waiters

/-!
# Wake: counting waiters, and what a probe disturbs

The ledger counts the living: the record of a waiter is published as long as its owner holds its
lock, a call of `live_waiters` whose probes are all determinate returns it, and no call returns
a record whose owner was gone when it began.

A probe takes the lock that it tests, and for that moment a registration of the generation is
refused, and another probe takes the lease for held.  `waiters_counted` is about the runs in
which no registration and no probe of a lease meets a probe, and no pid passes to another
process between the two questions about it.
-/

namespace GoalFlight.Wake

open Resumption

/-- The record's owner holds its lock. -/
def HeldRecord (r : WaiterRecord) (s : WaiterLedger) : Prop :=
  ∃ d, s.lock (.record r) = some d ∧ d.purpose = .registration ∧ d.orphan = false

/-- The record's number and its owner have been. -/
def Known (r : WaiterRecord) (s : WaiterLedger) : Prop :=
  r.instanceId < s.next ∧ r.owner ∈ s.born

/-- **A later ledger**: the dead stay dead, and a record that is let go is not held again. -/
structure LaterLedger (s s' : WaiterLedger) : Prop where
  next : s.next ≤ s'.next
  born : ∀ g ∈ s.born, g ∈ s'.born
  dead : ∀ g ∈ s.born, s'.Alive g → s.Alive g
  held : ∀ r, r.instanceId < s.next → HeldRecord r s' → HeldRecord r s

/-- **What is right of a call of `live_waiters`.** -/
structure Report.Right (rep : Report) (s : WaiterLedger) : Prop where
  before : rep.before ≤ s.next
  /-- With determinate probes it returns each record that was there before, and is still held. -/
  counts : rep.determinate = true → ∀ r, r.instanceId < rep.before → rep.wanted r = true →
    HeldRecord r s → ∃ live, rep.result = some live ∧ r ∈ live
  /-- It returns no record whose owner was gone. -/
  living : ∀ live, rep.result = some live → ∀ r ∈ live, r.owner ∉ rep.gone

/-- **What is right of a registration that is refused**: each lock that it tried was held by
another registration; these are the lock of one generation, or all the slots of one. -/
structure RefusalRight (slots : String → String → ℕ) (seen : List (LockName × Descriptor)) :
    Prop where
  registrations : ∀ e ∈ seen, e.2.purpose = .registration
  all : (∃ kind label key, seen.map Prod.fst = [.generation kind label key]) ∨
    ∃ label key, seen.map Prod.fst = (List.range (slots label key)).map (.slot label key)

/-- **The invariant of the ledger.** -/
structure SoundLedger (slots : String → String → ℕ) (s : WaiterLedger) : Prop where
  known : ∀ r, .record r ∈ s.files ∨ s.lock (.record r) ≠ none → Known r s
  born : ∀ g, s.Alive g → g ∈ s.born
  alive : ∀ name d, s.lock name = some d → d.orphan = false → s.Alive d.process
  owner : ∀ r d, s.lock (.record r) = some d → d.purpose = .registration →
    d.process = r.owner ∧ d.id = r.instanceId
  published : ∀ r, HeldRecord r s → .record r ∈ s.files
  inRange : ∀ label key i d, s.lock (.slot label key i) = some d →
    d.purpose = .registration ∧ i < slots label key
  reports : ∀ rep ∈ s.reports, rep.Right s
  refusals : ∀ seen ∈ s.refusals, RefusalRight slots seen
  leaseAnswers : ∀ d, .held d ∈ s.leaseAnswers → d.purpose = .registration

/-- **The condition**: no registration of a generation and no probe of a lease meets a probe of
its lock; and a pid whose identity was that of the owner of a locked record has not passed to
another process when it is asked for its state. -/
def Undisturbed : WaiterLabel → WaiterLedger → Prop
  | .attempt (.generation kind label key), s =>
    ∀ d, s.lock (.generation kind label key) = some d → d.purpose = .registration
  | .recheck r identity, s =>
    identity = some r.owner.startToken →
      ∀ p, s.processes r.owner.pid = some p → p.startToken = r.owner.startToken
  | _, _ => True

/-- The registrations of listeners use the configured number of slots. -/
def Configured (slots : String → String → ℕ) : WaiterCall → Prop
  | .register _ _ label (some key) (some n) => n = slots label key
  | _ => True

variable {slots : String → String → ℕ} {s s' : WaiterLedger} {r : WaiterRecord}
  {process g : Generation} {name : LockName} {d : Descriptor} {purpose : Purpose}

/-! ### Later ledgers -/

theorem LaterLedger.refl (s : WaiterLedger) : LaterLedger s s :=
  ⟨le_rfl, fun _ h => h, fun _ _ h => h, fun _ _ h => h⟩

theorem LaterLedger.trans {s₁ s₂ s₃ : WaiterLedger} (h : LaterLedger s₁ s₂)
    (h' : LaterLedger s₂ s₃) : LaterLedger s₁ s₃ where
  next := h.next.trans h'.next
  born g hg := h'.born g (h.born g hg)
  dead g hg halive := h.dead g hg (h'.dead g (h.born g hg) halive)
  held r hr hheld := h.held r hr (h'.held r (hr.trans_le h.next) hheld)

theorem Known.later (h : Known r s) (hlater : LaterLedger s s') : Known r s' :=
  ⟨h.1.trans_le hlater.next, hlater.born _ h.2⟩

theorem Report.Right.later {rep : Report} (h : rep.Right s) (hlater : LaterLedger s s') :
    rep.Right s' where
  before := h.before.trans hlater.next
  counts hdet r hr hwanted hheld :=
    h.counts hdet r hr hwanted (hlater.held r (hr.trans_le h.before) hheld)
  living := h.living

theorem SoundLedger.alive_owner (hs : SoundLedger slots s) (h : HeldRecord r s) :
    s.Alive r.owner := by
  obtain ⟨d, hlock, hpurpose, horphan⟩ := h
  have halive := hs.alive _ d hlock horphan
  rwa [(hs.owner r d hlock hpurpose).1] at halive

theorem eq_of_alive (hg : s.Alive g) (hp : s.Alive process) (hpid : g.pid = process.pid) :
    g = process := by
  unfold WaiterLedger.Alive at hg hp
  rw [hpid, hp] at hg
  have htoken : process.startToken = g.startToken :=
    congrArg Process.startToken (Option.some.inj hg)
  cases g
  cases process
  simp_all

/-! ### What the sections keep -/

theorem later_files {files : List LockName} : LaterLedger s { s with files := files } :=
  ⟨le_rfl, fun _ h => h, fun _ _ h => h, fun _ _ h => h⟩

theorem sound_unlink (hs : SoundLedger slots s) (hfree : ¬ HeldRecord r s) :
    LaterLedger s (s.unlink (.record r)) ∧ SoundLedger slots (s.unlink (.record r)) := by
  refine ⟨later_files, ?_⟩
  have hmem : ∀ {n}, n ∈ (s.unlink (.record r)).files → n ∈ s.files :=
    fun h => (List.mem_filter.mp h).1
  exact
    { hs with
      known := fun q hq => hs.known q (hq.imp_left hmem)
      published := by
        intro q hq
        refine List.mem_filter.mpr ⟨hs.published q hq, decide_eq_true fun hsame => ?_⟩
        cases hsame
        exact hfree hq
      reports := fun rep hrep => (hs.reports rep hrep).later later_files }

/-- What a lock may be taken for. -/
def Allowed (slots : String → String → ℕ) (s : WaiterLedger) (purpose : Purpose) :
    LockName → Prop
  | .record r => purpose = .probe ∧ Known r s
  | .generation _ _ _ => True
  | .slot label key i => purpose = .registration ∧ i < slots label key

theorem Allowed.later (h : Allowed slots s purpose name) (hlater : LaterLedger s s') :
    Allowed slots s' purpose name := by
  cases name with
  | record r => exact ⟨h.1, h.2.later hlater⟩
  | generation kind label key => trivial
  | slot label key i => exact h

section

variable (hs : SoundLedger slots s)
include hs

theorem sound_lockWith (halive : s.Alive process) (hallowed : Allowed slots s purpose name)
    (hfree : s.lock name = none) {files : List LockName}
    (hfiles : files = s.files ∨ ((∀ r, name ≠ .record r) ∧ files = name :: s.files)) :
    let next := WaiterLedger.lockWith { s with files := files } name (s.fresh process purpose)
    LaterLedger s next ∧ SoundLedger slots next := by
  intro next
  have hlock : ∀ n, next.lock n = if n = name then some (s.fresh process purpose) else s.lock n :=
    fun n => Function.update_apply s.lock name _ n
  have hold : ∀ {n d}, next.lock n = some d → n ≠ name → s.lock n = some d := by
    intro n d hd hne
    rwa [hlock, if_neg hne] at hd
  have hheld : ∀ q, HeldRecord q next → HeldRecord q s := by
    rintro q ⟨d, hd, hpurpose, horphan⟩
    by_cases hname : .record q = name
    · subst hname
      rw [hlock, if_pos rfl] at hd
      cases hd
      exact absurd (hallowed.1.symm.trans hpurpose) (by decide)
    · exact ⟨d, hold hd hname, hpurpose, horphan⟩
  have hlater : LaterLedger s next :=
    ⟨Nat.le_succ _, fun _ h => h, fun _ _ h => h, fun q _ h => hheld q h⟩
  have hrecord : ∀ q, .record q ∈ files → .record q ∈ s.files := by
    intro q hq
    rcases hfiles with rfl | ⟨hother, rfl⟩
    · exact hq
    · rcases List.mem_cons.mp hq with hsame | hin
      · exact absurd hsame.symm (hother q)
      · exact hin
  refine ⟨hlater, ?_⟩
  exact
    { hs with
      known := by
        intro q hq
        by_cases hname : .record q = name
        · subst hname
          exact hallowed.2.later hlater
        · refine (hs.known q (hq.imp (hrecord q) fun hsome hnone => hsome ?_)).later hlater
          rw [hlock, if_neg hname]
          exact hnone
      alive := by
        intro n d hd horphan
        by_cases hname : n = name
        · rw [hlock, if_pos hname] at hd
          cases hd
          exact halive
        · exact hs.alive n d (hold hd hname) horphan
      owner := by
        intro q d hd hpurpose
        by_cases hname : .record q = name
        · subst hname
          rw [hlock, if_pos rfl] at hd
          cases hd
          exact absurd (hallowed.1.symm.trans hpurpose) (by decide)
        · exact hs.owner q d (hold hd hname) hpurpose
      published := by
        intro q hq
        have hin := hs.published q (hheld q hq)
        show .record q ∈ files
        rcases hfiles with rfl | ⟨-, rfl⟩
        · exact hin
        · exact List.mem_cons_of_mem _ hin
      inRange := by
        intro label key i d hd
        by_cases hname : .slot label key i = name
        · subst hname
          rw [hlock, if_pos rfl] at hd
          cases hd
          exact hallowed
        · exact hs.inRange label key i d (hold hd hname)
      reports := fun rep hrep => (hs.reports rep hrep).later hlater }

theorem sound_locks {lock : LockName → Option Descriptor} {processes : ℕ → Option Process}
    (hlock : ∀ n d, lock n = some d → s.lock n = some d ∨
      (d.orphan = true ∧ ∃ old, s.lock n = some old ∧ old.purpose = d.purpose ∧
        old.process = d.process ∧ old.id = d.id))
    (hdead : ∀ g, processes g.pid = some ⟨g.startToken, false⟩ → s.Alive g)
    (halive : ∀ n d, lock n = some d → d.orphan = false →
      processes d.process.pid = some ⟨d.process.startToken, false⟩) :
    let next : WaiterLedger := { s with lock := lock, processes := processes }
    LaterLedger s next ∧ SoundLedger slots next := by
  intro next
  have hheld : ∀ q, HeldRecord q next → HeldRecord q s := by
    rintro q ⟨d, hd, hpurpose, horphan⟩
    rcases hlock _ d hd with hsame | ⟨hkept, -⟩
    · exact ⟨d, hsame, hpurpose, horphan⟩
    · rw [horphan] at hkept
      cases hkept
  have hlater : LaterLedger s next :=
    ⟨le_rfl, fun _ h => h, fun g _ h => hdead g h, fun q _ h => hheld q h⟩
  have hsome : ∀ {n d}, lock n = some d → s.lock n ≠ none := by
    intro n d hd hnone
    rcases hlock n d hd with hsame | ⟨-, old, hold, -⟩
    · rw [hnone] at hsame
      cases hsame
    · rw [hnone] at hold
      cases hold
  refine ⟨hlater, ?_⟩
  exact
    { hs with
      known := by
        intro q hq
        refine (hs.known q (hq.imp_right fun hlocked => ?_)).later hlater
        obtain ⟨d, hd⟩ := Option.ne_none_iff_exists'.mp hlocked
        exact hsome hd
      born := fun g hg => hs.born g (hdead g hg)
      alive := halive
      owner := by
        intro q d hd hpurpose
        rcases hlock _ d hd with hsame | ⟨-, old, hold, hp, hprocess, hid⟩
        · exact hs.owner q d hsame hpurpose
        · rw [← hprocess, ← hid]
          exact hs.owner q old hold (hp.trans hpurpose)
      published := fun q hq => hs.published q (hheld q hq)
      inRange := by
        intro label key i d hd
        rcases hlock _ d hd with hsame | ⟨-, old, hold, hp, -⟩
        · exact hs.inRange label key i d hsame
        · rw [← hp]
          exact hs.inRange label key i old hold
      reports := fun rep hrep => (hs.reports rep hrep).later hlater }

theorem sound_release (name : LockName) :
    let next : WaiterLedger := { s with lock := Function.update s.lock name none }
    LaterLedger s next ∧ SoundLedger slots next := by
  have hlock : ∀ n d, Function.update s.lock name none n = some d → s.lock n = some d := by
    intro n d hd
    rw [Function.update_apply] at hd
    split at hd
    · cases hd
    · exact hd
  exact sound_locks hs (fun n d hd => .inl (hlock n d hd)) (fun _ h => h)
    fun n d hd horphan => hs.alive n d (hlock n d hd) horphan

theorem sound_unlock (name : LockName) (d : Descriptor) :
    LaterLedger s (s.unlock name d) ∧ SoundLedger slots (s.unlock name d) := by
  unfold WaiterLedger.unlock
  split
  · exact sound_release hs name
  · exact ⟨.refl s, hs⟩

theorem not_held_unlock (horphan : d.orphan = false) (hpurpose : d.purpose = .registration)
    (hprocess : d.process = r.owner) (hid : d.id = r.instanceId) :
    ¬ HeldRecord r (s.unlock (.record r) d) := by
  rintro ⟨d', hd', hpurpose', horphan'⟩
  unfold WaiterLedger.unlock at hd'
  split at hd'
  · have hnone : none = some d' := (Function.update_self _ _ s.lock).symm.trans hd'
    cases hnone
  · rename_i hother
    obtain ⟨hprocess', hid'⟩ := hs.owner r d' hd' hpurpose'
    refine hother ?_
    rw [hd']
    cases d
    cases d'
    simp_all

theorem sound_publish (halive : s.Alive process) (kind label : String)
    (generation : Option String) :
    let r := s.newRecord process kind label generation
    let next := (s.create (.record r)).lockWith (.record r) (s.fresh process .registration)
    LaterLedger s next ∧ SoundLedger slots next := by
  intro r next
  have hlock : ∀ n, next.lock n =
      if n = .record r then some (s.fresh process .registration) else s.lock n :=
    fun n => Function.update_apply s.lock _ _ n
  have hold : ∀ {n d}, next.lock n = some d → n ≠ .record r → s.lock n = some d := by
    intro n d hd hne
    rwa [hlock, if_neg hne] at hd
  have hnew : ∀ q : WaiterRecord, q.instanceId < s.next → LockName.record q ≠ .record r := by
    rintro q hlt hsame
    cases hsame
    exact Nat.lt_irrefl _ hlt
  have hlater : LaterLedger s next := by
    refine ⟨Nat.le_succ _, fun _ h => h, fun _ _ h => h, ?_⟩
    rintro q hq ⟨d, hd, hpurpose, horphan⟩
    exact ⟨d, hold hd (hnew q hq), hpurpose, horphan⟩
  have hown : Known r next := ⟨Nat.lt_succ_self _, hs.born process halive⟩
  refine ⟨hlater, ?_⟩
  exact
    { hs with
      known := by
        intro q hq
        by_cases hname : q = r
        · rw [hname]
          exact hown
        · have hne : LockName.record q ≠ .record r := fun h => hname (LockName.record.inj h)
          refine (hs.known q (hq.imp (fun hin => ?_) fun hsome hnone => hsome ?_)).later hlater
          · exact (List.mem_cons.mp hin).resolve_left hne
          · rw [hlock, if_neg hne]
            exact hnone
      alive := by
        intro n d hd horphan
        by_cases hname : n = .record r
        · rw [hlock, if_pos hname] at hd
          cases hd
          exact halive
        · exact hs.alive n d (hold hd hname) horphan
      owner := by
        intro q d hd hpurpose
        by_cases hname : LockName.record q = .record r
        · rw [hlock, if_pos hname] at hd
          cases hd
          obtain rfl := LockName.record.inj hname
          exact ⟨rfl, rfl⟩
        · exact hs.owner q d (hold hd hname) hpurpose
      published := by
        rintro q ⟨d, hd, hpurpose, horphan⟩
        by_cases hname : LockName.record q = .record r
        · rw [hname]
          exact List.mem_cons_self
        · exact List.mem_cons_of_mem _ (hs.published q ⟨d, hold hd hname, hpurpose, horphan⟩)
      inRange := fun label key i d hd => hs.inRange label key i d (hold hd nofun)
      reports := fun rep hrep => (hs.reports rep hrep).later hlater }

/-! ### What happens to processes -/

theorem sound_spawn (g : Generation) :
    LaterLedger s (s.spawn g) ∧ SoundLedger slots (s.spawn g) := by
  unfold WaiterLedger.spawn
  split
  · rename_i hnew
    obtain ⟨hpid, hborn⟩ := hnew
    let next : WaiterLedger := { s with
      processes := Function.update s.processes g.pid (some ⟨g.startToken, false⟩)
      born := g :: s.born }
    have hprocesses : ∀ pid, next.processes pid =
        if pid = g.pid then some ⟨g.startToken, false⟩ else s.processes pid :=
      fun pid => Function.update_apply s.processes _ _ pid
    have hbefore : ∀ p, next.Alive p → p = g ∨ s.Alive p := by
      intro p hp
      by_cases hsame : p.pid = g.pid
      · refine .inl (eq_of_alive hp ?_ hsame)
        show next.processes g.pid = _
        rw [hprocesses, if_pos rfl]
      · refine .inr ?_
        have hstate : next.processes p.pid = some ⟨p.startToken, false⟩ := hp
        rwa [hprocesses, if_neg hsame] at hstate
    have hafter : ∀ p, s.Alive p → next.Alive p := by
      intro p hp
      have hother : p.pid ≠ g.pid := by
        intro hsame
        have hstate : s.processes p.pid = some ⟨p.startToken, false⟩ := hp
        rw [hsame, hpid] at hstate
        cases hstate
      show next.processes p.pid = _
      rw [hprocesses, if_neg hother]
      exact hp
    have hlater : LaterLedger s next := by
      refine ⟨le_rfl, fun _ h => List.mem_cons_of_mem _ h, fun p hp hnow => ?_, fun _ _ h => h⟩
      rcases hbefore p hnow with rfl | hold
      · exact absurd hp hborn
      · exact hold
    refine ⟨hlater, ?_⟩
    exact
      { hs with
        known := fun q hq => (hs.known q hq).later hlater
        born := by
          intro p hp
          rcases hbefore p hp with rfl | hold
          · exact List.mem_cons_self
          · exact List.mem_cons_of_mem _ (hs.born p hold)
        alive := fun n d hd horphan => hafter _ (hs.alive n d hd horphan)
        reports := fun rep hrep => (hs.reports rep hrep).later hlater }
  · exact ⟨.refl s, hs⟩

theorem sound_die (w : HostAnswer) (g : Generation) :
    LaterLedger s (s.die w g) ∧ SoundLedger slots (s.die w g) := by
  unfold WaiterLedger.die
  split
  · rename_i halive
    have hprocesses : ∀ pid, pid ≠ g.pid → Function.update s.processes g.pid
        (if w.lingers then some ⟨g.startToken, true⟩ else none) pid = s.processes pid :=
      fun pid hne => Function.update_of_ne hne _ _
    refine sound_locks hs (fun n d hd => ?_) (fun p hp => ?_) fun n d hd horphan => ?_
    · unfold WaiterLedger.lockAfter at hd
      split at hd
      · cases hd
      · rename_i old hold
        split at hd
        · split at hd
          · cases hd
            exact .inr ⟨rfl, old, hold, rfl, rfl, rfl⟩
          · cases hd
        · exact .inl (hold.trans hd)
    · by_cases hsame : p.pid = g.pid
      · rw [hsame, Function.update_self] at hp
        split at hp
        · have hzombie : true = false := congrArg Process.zombie (Option.some.inj hp)
          cases hzombie
        · cases hp
      · rwa [hprocesses _ hsame] at hp
    · unfold WaiterLedger.lockAfter at hd
      split at hd
      · cases hd
      · rename_i old hold
        split at hd
        · split at hd
          · obtain rfl := Option.some.inj hd
            cases horphan
          · cases hd
        · rename_i hother
          obtain rfl := Option.some.inj hd
          have hlives := hs.alive n old hold horphan
          have hne : old.process.pid ≠ g.pid :=
            fun hpid => hother ⟨eq_of_alive hlives halive hpid, horphan⟩
          rw [hprocesses _ hne]
          exact hlives
  · exact ⟨.refl s, hs⟩

theorem sound_reap (pid : ℕ) :
    LaterLedger s (s.reap pid) ∧ SoundLedger slots (s.reap pid) := by
  unfold WaiterLedger.reap
  split
  · rename_i hzombie
    have hother : ∀ p, s.Alive p → p.pid ≠ pid := by
      rintro p hp rfl
      have hstate : s.processes p.pid = some ⟨p.startToken, false⟩ := hp
      rw [hstate] at hzombie
      cases hzombie
    refine sound_locks hs (fun n d hd => .inl hd) (fun p hp => ?_) fun n d hd horphan => ?_
    · by_cases hsame : p.pid = pid
      · rw [hsame, Function.update_self] at hp
        cases hp
      · rwa [Function.update_of_ne hsame] at hp
    · have hlives := hs.alive n d hd horphan
      rw [Function.update_of_ne (hother _ hlives)]
      exact hlives
  · exact ⟨.refl s, hs⟩

theorem sound_orphanExits (name : LockName) :
    LaterLedger s (s.orphanExits name) ∧ SoundLedger slots (s.orphanExits name) := by
  unfold WaiterLedger.orphanExits
  split
  · exact sound_release hs name
  · exact ⟨.refl s, hs⟩

end

/-! ### Safe sections -/

/-- A program of the ledger is safe. -/
abbrev SafeWaiter (slots : String → String → ℕ) (P : WaiterProgram) (s : WaiterLedger) : Prop :=
  Safe LaterLedger (SoundLedger slots) Undisturbed P s

/-- A program is safe from every later ledger. -/
def SafeLater (slots : String → String → ℕ) (P : WaiterProgram) (s : WaiterLedger) : Prop :=
  ∀ s', LaterLedger s s' → SoundLedger slots s' → SafeWaiter slots P s'

theorem safeLater_done : SafeLater slots .done s := fun _ _ _ => trivial

variable {label : WaiterLabel} {rest granted refused : Descriptor → WaiterProgram}

theorem safe_act {write : HostAnswer → WaiterLedger → WaiterLedger}
    {rest : HostAnswer → WaiterLedger → WaiterProgram}
    (h : ∀ w s', LaterLedger s s' → SoundLedger slots s' → Undisturbed label s' →
      s'.Alive process → (LaterLedger s' (write w s') ∧ SoundLedger slots (write w s')) ∧
        SafeWaiter slots (rest w s') (write w s')) :
    SafeWaiter slots (act process label write rest) s := by
  intro s' hlater hs hguard w
  show LaterLedger s' (if s'.Alive process then write w s' else s') ∧
    SoundLedger slots (if s'.Alive process then write w s' else s') ∧
    SafeWaiter slots (if s'.Alive process then rest w s' else .done)
      (if s'.Alive process then write w s' else s')
  by_cases halive : s'.Alive process
  · rw [if_pos halive, if_pos halive]
    obtain ⟨hwrite, hrest⟩ := h w s' hlater hs hguard halive
    exact ⟨hwrite.1, hwrite.2, hrest⟩
  · rw [if_neg halive, if_neg halive]
    exact ⟨.refl s', hs, trivial⟩

theorem safe_look {rest : HostAnswer → WaiterLedger → WaiterProgram}
    (h : ∀ w s', LaterLedger s s' → SoundLedger slots s' → s'.Alive process →
      SafeWaiter slots (rest w s') s') : SafeWaiter slots (look process rest) s :=
  safe_act fun w s' hlater hs _ halive => ⟨⟨.refl s', hs⟩, h w s' hlater hs halive⟩

theorem safe_change {write : WaiterLedger → WaiterLedger} {P : WaiterProgram}
    (hwrite : ∀ s', LaterLedger s s' → SoundLedger slots s' →
      LaterLedger s' (write s') ∧ SoundLedger slots (write s'))
    (hrest : SafeLater slots P s) : SafeWaiter slots (change process write P) s := by
  refine safe_act fun w s' hlater hs _ _ => ⟨hwrite s' hlater hs, ?_⟩
  obtain ⟨hlater', hs'⟩ := hwrite s' hlater hs
  exact hrest _ (hlater.trans hlater') hs'

theorem safe_unlock {P : WaiterProgram} (name : LockName) (d : Descriptor)
    (hrest : SafeLater slots P s) :
    SafeWaiter slots (change process (fun s => s.unlock name d) P) s :=
  safe_change (fun _ _ hs => sound_unlock hs name d) hrest

/-- **A try of a lock**: granted, it is held; refused, another descriptor holds it. -/
theorem safe_tryLock (hallowed : Allowed slots s purpose name)
    (hgranted : ∀ d s', LaterLedger s s' → SoundLedger slots s' → s'.lock name = some d →
      d.purpose = purpose → SafeWaiter slots (granted d) s')
    (hrefused : ∀ d s', LaterLedger s s' → SoundLedger slots s' → s'.lock name = some d →
      Undisturbed label s' → SafeWaiter slots (refused d) s') :
    SafeWaiter slots (tryLock process purpose label name granted refused) s := by
  refine safe_act fun w s' hlater hs hguard halive => ?_
  cases hlock : s'.lock name with
  | none =>
    have hfiles : s'.files = s'.files ∨ ((∀ r, name ≠ .record r) ∧ s'.files = name :: s'.files) :=
      .inl rfl
    have htaken := sound_lockWith hs halive (hallowed.later hlater) hlock hfiles
    exact ⟨htaken, hgranted _ _ (hlater.trans htaken.1) htaken.2 (Function.update_self ..) rfl⟩
  | some d => exact ⟨⟨.refl s', hs⟩, hrefused d s' hlater hs hlock hguard⟩

theorem registration_of_refused (hs : SoundLedger slots s) (hname : ∀ r, name ≠ .record r)
    (hlock : s.lock name = some d) (hguard : Undisturbed (.attempt name) s) :
    d.purpose = .registration := by
  cases name with
  | record r => exact absurd rfl (hname r)
  | generation kind label key => exact hguard d hlock
  | slot label key i => exact (hs.inRange label key i d hlock).1

theorem safe_acquireContendedLock (hname : ∀ r, name ≠ .record r)
    (hallowed : Allowed slots s .registration name)
    (hgranted : ∀ d, SafeLater slots (granted d) s)
    (hrefused : ∀ d, d.purpose = .registration → SafeLater slots (refused d) s) :
    SafeWaiter slots (acquireContendedLock process name granted refused) s := by
  have hattempt : ∀ s', LaterLedger s s' → SafeWaiter slots
      (tryLock process .registration (.attempt name) name granted refused) s' := by
    intro s' hlater
    refine safe_tryLock (hallowed.later hlater) (fun d s'' hlater' hs _ _ => ?_)
      fun d s'' hlater' hs hlock hguard => ?_
    · exact hgranted d s'' (hlater.trans hlater') hs
    · exact hrefused d (registration_of_refused hs hname hlock hguard) s''
        (hlater.trans hlater') hs
  refine safe_look fun w s' hlater hs halive => ?_
  split
  · exact hattempt s' hlater
  refine safe_act fun w s'' hlater' hs' _ halive' => ?_
  split
  · exact ⟨⟨.refl s'', hs'⟩, hattempt s'' (hlater.trans hlater')⟩
  · rename_i hnew
    -- A file that is linked is new, so the descriptor replaces none that counts.
    have hallowed' := hallowed.later (hlater.trans hlater')
    have hempty : LaterLedger s'' { s'' with lock := Function.update s''.lock name none } ∧
        SoundLedger slots { s'' with lock := Function.update s''.lock name none } :=
      sound_release hs' name
    have hfiles : name :: s''.files = s''.files ∨
        ((∀ r, name ≠ .record r) ∧ name :: s''.files = name :: s''.files) := .inr ⟨hname, rfl⟩
    have htaken := sound_lockWith hempty.2 halive' (hallowed'.later hempty.1)
      (Function.update_self ..) hfiles
    have hsame : ((s''.create name).lockWith name (s''.fresh process .registration)) =
        WaiterLedger.lockWith
          { { s'' with lock := Function.update s''.lock name none } with
            files := name :: s''.files } name
          (WaiterLedger.fresh { s'' with lock := Function.update s''.lock name none } process
            .registration) := by
      unfold WaiterLedger.lockWith WaiterLedger.create WaiterLedger.fresh
      simp only [Function.update_idem]
    rw [hsame]
    have hlater'' := hempty.1.trans htaken.1
    exact ⟨⟨hlater'', htaken.2⟩,
      hgranted _ _ ((hlater.trans hlater').trans hlater'') htaken.2⟩

/-- **A probe of a lock** says that it is not held only when it was not. -/
theorem safe_probeLockedState {rest : LockState → WaiterProgram}
    (hallowed : Allowed slots s .probe name)
    (hunknown : SafeLater slots (rest .unknown) s)
    (hunheld : ∀ s', LaterLedger s s' → SoundLedger slots s' →
      (∀ r, name = .record r → ¬ HeldRecord r s') → SafeLater slots (rest .unheld) s')
    (hheld : ∀ d s', LaterLedger s s' → SoundLedger slots s' → s'.lock name = some d →
      Undisturbed label s' → SafeWaiter slots (rest (.held d)) s') :
    SafeWaiter slots (probeLockedState process label name rest) s := by
  refine safe_look fun w s' hlater hs halive => ?_
  split
  · refine safe_tryLock (hallowed.later hlater) (fun d s'' hlater' hs' hlock hpurpose => ?_)
      fun d s'' hlater' => hheld d s'' (hlater.trans hlater')
    refine safe_unlock name d (hunheld s'' (hlater.trans hlater') hs' ?_)
    rintro r rfl ⟨d', hd', hregistration, -⟩
    cases hlock.symm.trans hd'
    rw [hpurpose] at hregistration
    cases hregistration
  · exact hunknown s' hlater hs

/-! ### Registering -/

theorem safe_releaseHeld (held : Option (LockName × Descriptor)) :
    SafeLater slots (releaseHeld process held) s := by
  intro s' _ _
  cases held with
  | none => trivial
  | some held => exact safe_unlock held.1 held.2 safeLater_done

theorem safe_publishRecord (kind label : String) (generation : Option String)
    (held : Option (LockName × Descriptor)) :
    SafeLater slots (publishRecord process kind label generation held) s := by
  intro s₁ _ _
  refine safe_act fun w s' _ hs _ halive => ?_
  have hpublish := sound_publish hs halive kind label generation
  refine ⟨hpublish, ?_⟩
  have hknown : (s'.newRecord process kind label generation).instanceId < _ := Nat.lt_succ_self s'.next
  refine safe_act fun w s'' hlater hs' _ _ => ⟨sound_unlock hs' _ _, ?_⟩
  -- From here on the record is not held, so that it may be removed.
  have hfree := not_held_unlock (r := s'.newRecord process kind label generation)
    (d := s'.fresh process .registration) hs' rfl rfl rfl rfl
  have hunlock := sound_unlock hs' (.record (s'.newRecord process kind label generation))
    (s'.fresh process .registration)
  refine safe_change (fun s₃ hlater' hs₃ => sound_unlink hs₃ fun hheld => ?_)
    (safe_releaseHeld held)
  exact hfree (hlater'.held _ (hknown.trans_le (hlater.trans hunlock.1).next) hheld)

theorem safe_refuse {seen : List (LockName × Descriptor)} (hseen : RefusalRight slots seen) :
    SafeLater slots (refuse process seen) s := by
  intro s₁ _ _
  refine safe_change (fun s' _ hs => ?_) safeLater_done
  have hlater : LaterLedger s' { s' with refusals := seen :: s'.refusals } :=
    ⟨le_rfl, fun _ h => h, fun _ _ h => h, fun _ _ h => h⟩
  exact ⟨hlater,
    { hs with
      reports := fun rep hrep => (hs.reports rep hrep).later hlater
      refusals := List.forall_mem_cons.mpr ⟨hseen, hs.refusals⟩ }⟩

theorem safe_scanSlots {label key : String} {granted : LockName → Descriptor → WaiterProgram}
    (hgranted : ∀ name d s', SafeLater slots (granted name d) s') (n : ℕ) {i : ℕ}
    {seen : List (LockName × Descriptor)} (hcount : i + n = slots label key)
    (hregistrations : ∀ e ∈ seen, e.2.purpose = .registration)
    (hseen : seen.map Prod.fst = (List.range i).map (.slot label key)) :
    SafeLater slots (scanSlots process label key granted n i seen) s := by
  induction n generalizing i seen s with
  | zero =>
    refine safe_refuse ⟨hregistrations, .inr ⟨label, key, ?_⟩⟩
    rw [hseen, ← hcount, Nat.add_zero]
  | succ n ih =>
    intro s' hlater hs
    have hinRange : i < slots label key := by omega
    refine safe_acquireContendedLock nofun ⟨rfl, hinRange⟩ (fun d => hgranted _ d s') ?_
    intro d hd
    refine ih (by omega) ?_ ?_
    · intro e he
      rcases List.mem_append.mp he with hold | hnew
      · exact hregistrations e hold
      · rw [List.mem_singleton.mp hnew]
        exact hd
    · rw [List.map_append, hseen, List.range_succ, List.map_append]
      rfl

theorem safe_waiterRegistration {kind label : String} {generation : Option String}
    {n : Option ℕ} (hslots : Configured slots (.register process kind label generation n))
    (hs : SoundLedger slots s) :
    SafeWaiter slots (waiterRegistration process kind label generation n) s := by
  have hpublish : ∀ generation held s', SafeLater slots
      (publishRecord process kind label generation held) s' :=
    fun generation held s' => safe_publishRecord kind label generation held
  unfold waiterRegistration
  split
  · exact fun s' hlater hs => hpublish none none s s' hlater hs s' (.refl s') hs
  · refine safe_acquireContendedLock nofun trivial (fun d => hpublish _ _ s) fun d hd => ?_
    refine safe_refuse ⟨?_, .inl ⟨kind, label, _, rfl⟩⟩
    intro e he
    rw [List.mem_singleton.mp he]
    exact hd
  · split
    · exact safe_scanSlots (fun name d s' => hpublish _ _ s') _
        ((Nat.zero_add _).trans hslots) (fun e he => absurd he List.not_mem_nil) rfl s (.refl s) hs
    · trivial

/-! ### Probing -/

theorem dead_of_ownerMatches {s₁ s₂ s₃ : WaiterLedger} {w₁ w₂ w₃ : HostAnswer}
    (hknown : Known r s₁) (h₁₂ : LaterLedger s₁ s₂) (h₂₃ : LaterLedger s₂ s₃)
    (h : ownerMatches r (s₁.identity w₁ r.owner.pid) (s₂.liveness w₂ r.owner.pid)
      (s₃.zombie w₃ r.owner.pid) = some false) : ¬ s₃.Alive r.owner := by
  intro halive
  have halive₂ : s₂.Alive r.owner := h₂₃.dead _ (hknown.later h₁₂).2 halive
  have halive₁ : s₁.Alive r.owner := h₁₂.dead _ hknown.2 halive₂
  have hidentity : s₁.identity w₁ r.owner.pid = none ∨
      s₁.identity w₁ r.owner.pid = some r.owner.startToken := by
    unfold WaiterLedger.identity
    split
    · exact .inr (congrArg (Option.map Process.startToken) halive₁)
    · exact .inl rfl
  have hliveness : s₂.liveness w₂ r.owner.pid ≠ some false := by
    unfold WaiterLedger.liveness
    split
    · rw [show s₂.processes r.owner.pid = _ from halive₂]
      exact nofun
    · exact nofun
  have hzombie : s₃.zombie w₃ r.owner.pid ≠ some true := by
    unfold WaiterLedger.zombie
    split
    · rw [show s₃.processes r.owner.pid = _ from halive]
      exact nofun
    · exact nofun
  unfold ownerMatches at h
  rw [if_neg (not_or.mpr ⟨hliveness, hzombie⟩)] at h
  rcases hidentity with hnone | htoken
  · rw [hnone] at h
    cases h
  · rw [htoken] at h
    simp only [ne_eq, not_true_eq_false, if_false] at h
    split at h <;> cases h

theorem alive_of_ownerMatches {w : HostAnswer} {identity : Option String}
    {liveness : Option Bool}
    (hguard : identity = some r.owner.startToken →
      ∀ p, s.processes r.owner.pid = some p → p.startToken = r.owner.startToken)
    (h : ownerMatches r identity liveness (s.zombie w r.owner.pid) = some true) :
    s.Alive r.owner := by
  unfold ownerMatches at h
  split at h
  · cases h
  split at h
  · cases h
  rename_i token
  split at h
  · cases h
  rename_i htoken
  split at h
  · rename_i hzombie
    unfold WaiterLedger.zombie at hzombie
    split at hzombie
    · have hall := Option.some.inj hzombie
      cases hp : s.processes r.owner.pid with
      | none =>
        rw [hp] at hall
        cases hall
      | some p =>
        rw [hp] at hall
        have hsame := hguard (congrArg some (not_not.mp htoken)) p hp
        show s.processes r.owner.pid = _
        rw [hp]
        cases p
        cases hsame
        exact congrArg (fun z => some (Process.mk _ z)) hall
    · cases hzombie
  · cases h

/-- **What a call has found**: no record of an owner that was gone, and with determinate probes
every record that it has examined and that is held. -/
structure Tallied (gone : List Generation) (done : List WaiterRecord) (t : Tally)
    (s : WaiterLedger) : Prop where
  known : ∀ r ∈ done, Known r s
  living : ∀ r ∈ t.live, r.owner ∉ gone
  counts : t.determinate = true → ∀ r ∈ done, HeldRecord r s → r ∈ t.live
  determinate : t.indeterminate = true → t.determinate = false

variable {gone : List Generation} {done : List WaiterRecord} {t : Tally}

section

variable (h : Tallied gone done t s)
include h

theorem Tallied.later (hlater : LaterLedger s s') :
    Tallied gone done t s' :=
  { h with
    known r hr := (h.known r hr).later hlater
    counts hdet r hr hheld := h.counts hdet r hr (hlater.held r (h.known r hr).1 hheld) }

theorem Tallied.dropped (hknown : Known r s) (hfree : ¬ HeldRecord r s) (b : Bool) :
    Tallied gone (done ++ [r]) { t with determinate := t.determinate && b } s where
  known q hq := by
    rcases List.mem_append.mp hq with hold | hnew
    · exact h.known q hold
    · rw [List.mem_singleton.mp hnew]
      exact hknown
  living := h.living
  counts hdet q hq hheld := by
    rcases List.mem_append.mp hq with hold | hnew
    · exact h.counts ((Bool.and_eq_true _ _).mp hdet).1 q hold hheld
    · rw [List.mem_singleton.mp hnew] at hheld
      exact absurd hheld hfree
  determinate hind := by
    show (t.determinate && b) = false
    rw [h.determinate hind]
    rfl

theorem Tallied.found (hknown : Known r s) (hliving : r.owner ∉ gone) (b : Bool) :
    Tallied gone (done ++ [r])
      { t with live := t.live ++ [r], determinate := t.determinate && b } s where
  known q hq := by
    rcases List.mem_append.mp hq with hold | hnew
    · exact h.known q hold
    · rw [List.mem_singleton.mp hnew]
      exact hknown
  living q hq := by
    rcases List.mem_append.mp hq with hold | hnew
    · exact h.living q hold
    · rw [List.mem_singleton.mp hnew]
      exact hliving
  counts hdet q hq hheld := by
    rcases List.mem_append.mp hq with hold | hnew
    · exact List.mem_append_left _ (h.counts ((Bool.and_eq_true _ _).mp hdet).1 q hold hheld)
    · exact List.mem_append_right _ hnew
  determinate hind := by
    show (t.determinate && b) = false
    rw [h.determinate hind]
    rfl

theorem Tallied.open_ (hknown : Known r s) :
    Tallied gone (done ++ [r]) { t with indeterminate := true, determinate := false } s where
  known q hq := by
    rcases List.mem_append.mp hq with hold | hnew
    · exact h.known q hold
    · rw [List.mem_singleton.mp hnew]
      exact hknown
  living := h.living
  counts hdet := by cases hdet
  determinate _ := rfl

end

/-- The three questions about the process of a record, the verdict, and the rest of the loop. -/
def examineRest (process : Generation) (pruneDead : Bool) (reply : Tally → WaiterProgram)
    (r : WaiterRecord) (more : List WaiterRecord) (t : Tally) (lockState : LockState) :
    WaiterProgram :=
  look process fun w s =>
    let identity := s.identity w r.owner.pid
    look process fun w s =>
      let liveness := s.liveness w r.owner.pid
      act process (recheckLabel r identity lockState) (fun _ s => s) fun w s =>
        let owner := ownerMatches r identity liveness (s.zombie w r.owner.pid)
        let t := { t with determinate := t.determinate && lockState ≠ .unknown && owner.isSome }
        match owner, lockState with
        | some true, .held _ =>
          examineAll process pruneDead reply more { t with live := t.live ++ [r] }
        | some false, _ | _, .unheld =>
          if pruneDead then
            change process (fun s => s.unlink (.record r)) (examineAll process pruneDead reply more t)
          else examineAll process pruneDead reply more t
        | _, _ => examineAll process pruneDead reply more { t with indeterminate := true }

theorem examineAll_cons {pruneDead : Bool} {reply : Tally → WaiterProgram} {r : WaiterRecord}
    {more : List WaiterRecord} : examineAll process pruneDead reply (r :: more) t =
      probeLockedState process .free (.record r) (examineRest process pruneDead reply r more t) :=
  rfl

/-- **The loop of `live_waiters` is safe.** -/
theorem safe_examineAll {pruneDead : Bool} {reply : Tally → WaiterProgram}
    {more : List WaiterRecord} (hmore : ∀ r ∈ more, Known r s)
    (hgone : ∀ g ∈ gone, g ∈ s.born ∧ ¬ s.Alive g) (ht : Tallied gone done t s)
    (hreply : ∀ t' s', LaterLedger s s' → SoundLedger slots s' →
      Tallied gone (done ++ more) t' s' → SafeWaiter slots (reply t') s') :
    SafeLater slots (examineAll process pruneDead reply more t) s := by
  induction more generalizing s done t with
  | nil =>
    intro s' hlater hs
    have ht' := ht.later hlater
    rw [← List.append_nil done] at ht'
    exact hreply t s' hlater hs ht'
  | cons r more ih =>
    -- After the probes of the record, the rest of the loop.
    have hrest : ∀ {t' s'}, LaterLedger s s' → Tallied gone (done ++ [r]) t' s' →
        SafeLater slots (examineAll process pruneDead reply more t') s' := by
      intro t' s' hlater ht'
      refine ih (fun q hq => (hmore q (List.mem_cons_of_mem _ hq)).later hlater)
        (fun g hg => ?_) ht' fun t'' s'' hlater' hs' htallied => ?_
      · obtain ⟨hborn, hdead⟩ := hgone g hg
        exact ⟨hlater.born g hborn, fun halive => hdead (hlater.dead g hborn halive)⟩
      · rw [List.append_assoc] at htallied
        exact hreply t'' s'' (hlater.trans hlater') hs' htallied
    have hknown : Known r s := hmore r List.mem_cons_self
    have hquestions : ∀ lockState s₀, LaterLedger s s₀ → SoundLedger slots s₀ →
        (lockState = .unheld → ¬ HeldRecord r s₀) →
        SafeWaiter slots (examineRest process pruneDead reply r more t lockState) s₀ := by
      intro lockState s₀ h₀ hs₀ hunheld
      refine safe_look fun w₁ s₁ h₀₁ hs₁ _ => ?_
      refine safe_look fun w₂ s₂ h₁₂ hs₂ _ => ?_
      refine safe_act fun w₃ s₃ h₂₃ hs₃ hguard _ => ⟨⟨.refl s₃, hs₃⟩, ?_⟩
      have hlater : LaterLedger s s₃ := ((h₀.trans h₀₁).trans h₁₂).trans h₂₃
      have hknown₃ := hknown.later hlater
      have ht₃ := ht.later hlater
      -- A record that is not held is dropped, and may be removed.
      have hdrop : ¬ HeldRecord r s₃ → ∀ b, SafeWaiter slots
          (if pruneDead then
            change process (fun s => s.unlink (.record r)) (examineAll process pruneDead reply
              more { t with determinate := t.determinate && b })
          else examineAll process pruneDead reply more
            { t with determinate := t.determinate && b }) s₃ := by
        intro hfree b
        have hnext := hrest hlater (ht₃.dropped hknown₃ hfree b)
        split
        · refine safe_change (fun s₄ h₃₄ hs₄ => sound_unlink hs₄ fun hheld => ?_) hnext
          exact hfree (h₃₄.held r hknown₃.1 hheld)
        · exact hnext s₃ (.refl s₃) hs₃
      have hunheld₃ : lockState = .unheld → ¬ HeldRecord r s₃ := fun hstate hheld =>
        hunheld hstate (((h₀₁.trans h₁₂).trans h₂₃).held r (hknown.later h₀).1 hheld)
      have hdead : ownerMatches r (s₁.identity w₁ r.owner.pid) (s₂.liveness w₂ r.owner.pid)
          (s₃.zombie w₃ r.owner.pid) = some false → ¬ HeldRecord r s₃ := fun howner hheld =>
        dead_of_ownerMatches (hknown.later (h₀.trans h₀₁)) h₁₂ h₂₃ howner
          (hs₃.alive_owner hheld)
      have hopen : ∀ b, b = false → SafeWaiter slots (examineAll process pruneDead reply more
          { t with indeterminate := true, determinate := t.determinate && b }) s₃ := by
        rintro b rfl
        rw [Bool.and_false]
        exact hrest hlater (ht₃.open_ hknown₃) s₃ (.refl s₃) hs₃
      have hfound : ∀ d, lockState = .held d → ownerMatches r (s₁.identity w₁ r.owner.pid)
          (s₂.liveness w₂ r.owner.pid) (s₃.zombie w₃ r.owner.pid) = some true →
          ∀ b, SafeWaiter slots (examineAll process pruneDead reply more
            { t with live := t.live ++ [r], determinate := t.determinate && b }) s₃ := by
        rintro d rfl howner b
        refine hrest hlater (ht₃.found hknown₃ (fun hin => ?_) b) s₃ (.refl s₃) hs₃
        obtain ⟨hborn, hgone'⟩ := hgone _ hin
        exact hgone' (hlater.dead _ hborn (alive_of_ownerMatches hguard howner))
      simp only [Bool.and_assoc]
      generalize ownerMatches r (s₁.identity w₁ r.owner.pid) (s₂.liveness w₂ r.owner.pid)
        (s₃.zombie w₃ r.owner.pid) = owner at hdead hfound ⊢
      rcases owner with _ | _ | _
      · cases lockState with
        | unknown => exact hopen _ (Bool.and_false _)
        | unheld => exact hdrop (hunheld₃ rfl) _
        | held d => exact hopen _ (Bool.and_false _)
      · exact hdrop (hdead rfl) _
      · cases lockState with
        | unknown => exact hopen _ rfl
        | unheld => exact hdrop (hunheld₃ rfl) _
        | held d => exact hfound d rfl rfl _
    intro s₀ h₀ hs₀
    rw [examineAll_cons]
    refine safe_probeLockedState ⟨rfl, hknown.later h₀⟩ ?_ ?_ ?_
    · exact fun s₁ h₁ hs₁ => hquestions .unknown s₁ (h₀.trans h₁) hs₁ nofun
    · intro s₁ h₁ _ hfree s₂ h₂ hs₂
      refine hquestions .unheld s₂ ((h₀.trans h₁).trans h₂) hs₂ fun _ hheld => ?_
      exact hfree r rfl (h₂.held r ((hknown.later (h₀.trans h₁))).1 hheld)
    · exact fun d s₁ h₁ hs₁ _ _ => hquestions (.held d) s₁ (h₀.trans h₁) hs₁ nofun

theorem mem_listing {wanted : WaiterRecord → Bool} :
    r ∈ s.listing wanted ↔ .record r ∈ s.files ∧ wanted r = true := by
  unfold WaiterLedger.listing
  rw [List.mem_filterMap]
  constructor
  · rintro ⟨name, hname, hsome⟩
    split at hsome
    · split at hsome
      · rename_i hwanted
        cases hsome
        exact ⟨hname, hwanted⟩
      · cases hsome
    · cases hsome
  · rintro ⟨hin, hwanted⟩
    exact ⟨_, hin, if_pos hwanted⟩

theorem safe_answerWith {rep : Report} (hrep : rep.Right s) :
    SafeWaiter slots (answerWith process rep) s := by
  refine safe_change (fun s' hlater hs => ?_) safeLater_done
  have hlater' : LaterLedger s' { s' with reports := rep :: s'.reports } :=
    ⟨le_rfl, fun _ h => h, fun _ _ h => h, fun _ _ h => h⟩
  exact ⟨hlater',
    { hs with
      reports := List.forall_mem_cons.mpr ⟨(hrep.later hlater).later hlater',
        fun other hother => (hs.reports other hother).later hlater'⟩ }⟩

/-- **`live_waiters` is safe.** -/
theorem safe_liveWaiters (wanted : WaiterRecord → Bool) (pruneDead : Bool) :
    SafeWaiter slots (liveWaiters process wanted pruneDead) s := by
  refine safe_look fun w s' _ hs _ => ?_
  split
  · exact safe_answerWith ⟨le_rfl, nofun, nofun⟩
  have hlisted : ∀ r ∈ s'.listing wanted, Known r s' :=
    fun r hr => hs.known r (.inl (mem_listing.mp hr).1)
  have hgone : ∀ g ∈ s'.gone, g ∈ s'.born ∧ ¬ s'.Alive g := by
    intro g hg
    obtain ⟨hborn, hdead⟩ := List.mem_filter.mp hg
    exact ⟨hborn, of_decide_eq_true hdead⟩
  have hnothing : Tallied s'.gone [] ⟨[], false, true⟩ s' :=
    ⟨nofun, nofun,
      nofun, nofun⟩
  refine safe_examineAll hlisted hgone hnothing (fun t s'' hlater hs' ht => ?_) s' (.refl s') hs
  rw [List.nil_append] at ht
  refine safe_answerWith ⟨hlater.next, fun hdet r hr hwanted hheld => ?_, fun live hlive => ?_⟩
  · have hlisted' : r ∈ s'.listing wanted :=
      mem_listing.mpr ⟨hs.published r (hlater.held r hr hheld), hwanted⟩
    refine ⟨t.live, ?_, ht.counts hdet r hlisted' hheld⟩
    show (if t.indeterminate then none else some t.live) = some t.live
    rw [if_neg]
    intro hind
    rw [ht.determinate hind] at hdet
    cases hdet
  · have hresult : (if t.indeterminate then none else some t.live) = some live := hlive
    split at hresult
    · cases hresult
    · cases hresult
      exact ht.living

theorem safe_leaseHolderAlive (label leaseNonce : String) :
    SafeWaiter slots (leaseHolderAlive process label leaseNonce) s := by
  have hanswer : ∀ answer, (∀ d, answer = .held d → d.purpose = .registration) → ∀ s',
      SafeWaiter slots (change process
        (fun s => { s with leaseAnswers := answer :: s.leaseAnswers }) .done) s' := by
    intro answer hregistration s'
    refine safe_change (fun s'' _ hs => ?_) safeLater_done
    have hlater : LaterLedger s'' { s'' with leaseAnswers := answer :: s''.leaseAnswers } :=
      ⟨le_rfl, fun _ h => h, fun _ _ h => h, fun _ _ h => h⟩
    exact ⟨hlater,
      { hs with
        reports := fun rep hrep => (hs.reports rep hrep).later hlater
        leaseAnswers := by
          intro d hd
          rcases List.mem_cons.mp hd with hsame | hold
          · exact hregistration d hsame.symm
          · exact hs.leaseAnswers d hold }⟩
  refine safe_probeLockedState trivial ?_ ?_ ?_
  · exact fun s' _ _ => hanswer .unknown nofun s'
  · exact fun _ _ _ _ s' _ _ => hanswer .unheld nofun s'
  · intro d s' _ _ hlock hguard
    refine hanswer (.held d) (fun d' hd' => ?_) s'
    cases hd'
    exact hguard d hlock

theorem safe_coverageStatus (label leaseNonce : String) (wanted : WaiterRecord → Bool) :
    SafeWaiter slots (coverageStatus process label leaseNonce wanted) s :=
  safe_probeLockedState trivial (fun _ _ _ => safe_liveWaiters wanted true)
    (fun _ _ _ _ _ _ _ => safe_liveWaiters wanted true)
    fun _ _ _ _ _ _ => safe_liveWaiters wanted true

/-! ### The ledger counts the living -/

theorem safe_event {write : HostAnswer → WaiterLedger → WaiterLedger}
    (h : ∀ w s', SoundLedger slots s' → LaterLedger s' (write w s') ∧
      SoundLedger slots (write w s')) : SafeWaiter slots (event write) s := by
  intro s' _ hs _ w
  exact ⟨(h w s' hs).1, (h w s' hs).2, trivial⟩

theorem safe_waiterCall {c : WaiterCall} (hc : Configured slots c) (hs : SoundLedger slots s) :
    SafeWaiter slots c.program s := by
  cases c with
  | register process kind label generation n => exact safe_waiterRegistration hc hs
  | holdLease process label leaseNonce =>
    refine safe_acquireContendedLock nofun trivial
      (fun d s' _ _ => safe_unlock _ d safeLater_done) fun d hd => ?_
    refine safe_refuse ⟨fun e he => ?_, .inl ⟨"lease", label, leaseNonce, rfl⟩⟩
    rw [List.mem_singleton.mp he]
    exact hd
  | liveWaiters process wanted pruneDead => exact safe_liveWaiters wanted pruneDead
  | leaseHolderAlive process label leaseNonce => exact safe_leaseHolderAlive label leaseNonce
  | coverageStatus process label leaseNonce wanted =>
    exact safe_coverageStatus label leaseNonce wanted
  | spawn g => exact safe_event fun _ _ hs => sound_spawn hs g
  | die g => exact safe_event fun w _ hs => sound_die hs w g
  | reap pid => exact safe_event fun _ _ hs => sound_reap hs pid
  | orphanExits name => exact safe_event fun _ _ hs => sound_orphanExits hs name

theorem sound_empty : SoundLedger slots .empty where
  known r h := by
    rcases h with hin | hlocked
    · cases hin
    · exact absurd rfl hlocked
  born g h := by cases h
  alive name d h := by cases h
  owner r d h := by cases h
  published r h := by
    obtain ⟨d, hd, -⟩ := h
    cases hd
  inRange label key i d h := by cases h
  reports rep h := absurd h List.not_mem_nil
  refusals seen h := absurd h List.not_mem_nil
  leaseAnswers d h := absurd h List.not_mem_nil

/-- **The ledger counts the living, and looking does not disturb it**, in every run whose steps
meet the condition: the record of a waiter that holds it is there; a call of `live_waiters`
returns each such record when its probes are determinate, and none whose owner was gone; the
slots that are held are in range; a registration is refused only by registrations of its
generation, or of every slot of it; and a lease is said to be held only where a registration
holds it. -/
theorem waiters_counted (slots : String → String → ℕ) {actions : List WaiterAction}
    (hmeets : Machine.Meets (step WaiterCall.program)
      (Condition (Configured slots) Undisturbed) (idle .empty) actions) :
    let s := (WaiterState.run (idle .empty) actions).shared
    (∀ r, HeldRecord r s → s.Alive r.owner ∧ .record r ∈ s.files) ∧
    (∀ rep ∈ s.reports, rep.Right s) ∧
    (∀ label key i, s.lock (.slot label key i) ≠ none → i < slots label key) ∧
    (∀ seen ∈ s.refusals, RefusalRight slots seen) ∧
    ∀ d, .held d ∈ s.leaseAnswers → d.purpose = .registration := by
  intro s
  have hstart : AllSafe LaterLedger (SoundLedger slots) Undisturbed (idle .empty : WaiterState) :=
    allSafe_idle sound_empty
  obtain ⟨hend, -⟩ := hstart.run LaterLedger.refl LaterLedger.trans
    (fun c hc s hs => safe_waiterCall hc hs) hmeets
  have hs : SoundLedger slots s := hend.inv
  refine ⟨fun r hheld => ⟨hs.alive_owner hheld, hs.published r hheld⟩, hs.reports,
    fun label key i hlocked => ?_, hs.refusals, hs.leaseAnswers⟩
  obtain ⟨d, hd⟩ := Option.ne_none_iff_exists'.mp hlocked
  exact (hs.inRange label key i d hd).2

/-! ### A probe that is in the way -/

/-- A process that waits. -/
def waiting : Generation := ⟨1, "waiting"⟩

/-- A process that looks who waits. -/
def probing : Generation := ⟨2, "probing"⟩

/-- A world in which every probe says something. -/
def plainHost : HostAnswer := ⟨false, true, false, fun _ => false⟩

/-- A process starts. -/
def started (g : Generation) : List WaiterAction := [.call 0 (.spawn g), .turn 0 plainHost]

/-- A waiter registers, and is counted. -/
def countedOnce : List WaiterAction :=
  started waiting ++ [.call 0 (.register waiting "wait" "c" none none), .turn 0 plainHost,
    .call 1 (.liveWaiters waiting (fun _ => true) true)] ++ List.replicate 7 (.turn 1 plainHost)

/-- A waiter that is counted by a probe. -/
theorem waiters_counted_once :
    let s := (WaiterState.run (idle .empty) countedOnce).shared
    (∀ r, HeldRecord r s → s.Alive r.owner ∧ .record r ∈ s.files) ∧
    (∀ rep ∈ s.reports, rep.Right s) ∧
    (∀ label key i, s.lock (.slot label key i) ≠ none → i < 1) ∧
    (∀ seen ∈ s.refusals, RefusalRight (fun _ _ => 1) seen) ∧
    ∀ d, .held d ∈ s.leaseAnswers → d.purpose = .registration := by
  have hmeets : Machine.Meets (step WaiterCall.program)
      (Condition (Configured fun _ _ => 1) Undisturbed) (idle .empty) countedOnce := by
    refine ⟨trivial, trivial, trivial, trivial, trivial, trivial,
      trivial, trivial, trivial, trivial, fun _ p hp => ?_, trivial, trivial⟩
    cases hp
    rfl
  exact waiters_counted (fun _ _ => 1) hmeets

/-- A lease is held once, and then two probes and a registration meet. -/
def metProbe : List WaiterAction :=
  started waiting ++ started probing ++
    [.call 0 (.holdLease waiting "c" "n"), .turn 0 plainHost, .turn 0 plainHost, .turn 0 plainHost,
      .call 1 (.leaseHolderAlive probing "c" "n"), .turn 1 plainHost, .turn 1 plainHost,
      .call 2 (.holdLease waiting "c" "n"), .turn 2 plainHost, .turn 2 plainHost,
      .turn 2 plainHost,
      .call 3 (.leaseHolderAlive waiting "c" "n"), .turn 3 plainHost, .turn 3 plainHost,
      .turn 3 plainHost]

/-- **A probe refuses a registration of a free lease, and makes another probe say that it is
held**: while it tests the lock it holds it. -/
theorem probe_in_the_way :
    let s := (WaiterState.run (idle .empty) metProbe).shared
    (∃ seen ∈ s.refusals, ∃ e ∈ seen, e.2.purpose = .probe) ∧
      ∃ d, .held d ∈ s.leaseAnswers ∧ d.purpose = .probe := by
  exact ⟨⟨_, List.mem_cons_self, _, List.mem_cons_self, rfl⟩, _, List.mem_cons_self, rfl⟩

end GoalFlight.Wake
