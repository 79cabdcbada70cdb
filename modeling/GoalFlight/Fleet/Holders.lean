import GoalFlight.Fleet.AccountLock

/-!
# Fleet: one account, one holder

In a run in which `flock` is never granted on an inode that the path has lost, and no two accounts
have one file, an account has one holder (`account_one_holder`): what a call reads under the
advisory lock stays what the file has until the call's own renaming (`Inside`).

A process that waits for the advisory lock of a file that another replaces gets the lock of an inode
that nobody else opens any more (`stale_inode_two_holders`).
-/

namespace GoalFlight.Fleet

variable {controllerId : ℕ → String}
variable {q : ℕ} {now : ℤ} {place : Place} {existing : Option AccountLock}

/-! ### Paths -/

theorem getLast_accountLockPath (key : String) : (accountLockPath key).getLast? = some 'n' := by
  unfold accountLockPath
  rw [List.getLast?_append]
  rfl

theorem accountLockPath_ne_temporaryPath (key : String) (path : Path) :
    accountLockPath key ≠ temporaryPath path := by
  intro heq
  have hlast := getLast_accountLockPath key
  rw [heq] at hlast
  unfold temporaryPath at hlast
  rw [List.getLast?_append, show ".tmp".toList.getLast? = some 'p' by decide] at hlast
  simp at hlast

theorem temporaryPath_inj {path path' : Path} (h : temporaryPath path = temporaryPath path') :
    path = path' := List.append_cancel_right h

/-! ### Documents -/

theorem AccountLock.Held.earlier {lock : AccountLock} {later : ℤ} (hle : now ≤ later)
    (h : lock.Held later) : lock.Held now := by
  refine ⟨h.1, ?_⟩
  have hlater := h.2
  unfold AccountLock.expired at hlater ⊢
  rw [decide_eq_false_iff_not] at hlater ⊢
  omega

/-- What a call has found of the document, as long as that is there. -/
def Passed (c : Call) (now : ℤ) (existing : Option AccountLock) : Prop :=
  match c with
  | .acquire .. => ∀ lock, existing = some lock → ¬ lock.Held now
  | .renew _ owner token _ => ∃ lock, existing = some lock ∧ lock.state = .active ∧
      lock.ownerDispatchId = owner ∧ lock.fencingToken = token
  | .release _ token _ => ∃ lock, existing = some lock ∧ lock.fencingToken = token

variable {c : Call}

theorem passed_of_check (h : c.check now existing = .ok ()) :
    Passed c now existing := by
  unfold Call.check at h
  unfold Passed
  cases c with
  | acquire key owner ttlS =>
    rintro lock rfl ⟨hactive, hexpired⟩
    simp [hactive, hexpired] at h
  | renew key owner token ttlS =>
    cases existing with
    | none => cases h
    | some lock =>
      simp only at h
      split at h
      · cases h
      · split at h
        · cases h
        · split at h
          · cases h
          · exact ⟨lock, rfl, not_not.mp ‹_›, not_not.mp ‹_›, not_not.mp ‹_›⟩
  | release key token reason =>
    cases existing with
    | none => cases h
    | some lock =>
      simp only at h
      split at h
      · cases h
      · exact ⟨lock, rfl, not_not.mp ‹_›⟩

theorem Passed.later {later : ℤ} (h : Passed c now existing) (hle : now ≤ later) :
    Passed c later existing := by
  unfold Passed at h ⊢
  cases c with
  | acquire key owner ttlS => exact fun lock hlock hheld => h lock hlock (hheld.earlier hle)
  | renew key owner token ttlS => exact h
  | release key token reason => exact h

/-- What a call writes over a lock: the lock's own, with its token and its owner, and active only
if that was. -/
theorem document_of_not_acquire {controller : String} {newToken : ℕ}
    {lock : AccountLock} (hc : c.isAcquire = false)
    (h : c.document controller newToken now existing = some lock) :
    ∃ stored, existing = some stored ∧ lock.fencingToken = stored.fencingToken ∧
      lock.accountKey = stored.accountKey ∧ lock.ownerDispatchId = stored.ownerDispatchId ∧
      (lock.state = .active → stored.state = .active) := by
  cases c with
  | acquire key owner ttlS => cases hc
  | renew key owner token ttlS =>
    obtain ⟨stored, hstored, rfl⟩ := Option.map_eq_some_iff.mp h
    exact ⟨stored, hstored, rfl, rfl, rfl, id⟩
  | release key token reason =>
    obtain ⟨stored, hstored, rfl⟩ := Option.map_eq_some_iff.mp h
    exact ⟨stored, hstored, rfl, rfl, rfl, nofun⟩

theorem document_of_acquire {controller : String} {newToken : ℕ}
    {lock : AccountLock} (hc : c.isAcquire = true)
    (h : c.document controller newToken now existing = some lock) :
    lock.fencingToken = newToken ∧ lock.accountKey = c.accountKey := by
  cases c with
  | acquire key owner ttlS => cases h; exact ⟨rfl, rfl⟩
  | renew key owner token ttlS => cases hc
  | release key token reason => cases hc

/-! ### The condition and the property -/

/-- **The condition**: no account's file is another's, and the advisory lock is granted on the
inode that the path has. -/
def Current (s : State) : Action → Prop
  | .call _ c => ∀ key ∈ s.shared.accountKeys, accountLockPath key = c.path → key = c.accountKey
  | .turn p =>
    match s.place p with
    | .opened c inode =>
      s.shared.files.holder inode = none → s.shared.files.named c.path = some inode
    | _ => True
  | _ => True

/-- **One holder**: of an account's locks one at most is held, and the file of an account has no
lock of another. -/
structure OneHolder (w : World) : Prop where
  one : ∀ a ∈ w.granted, ∀ b ∈ w.granted, a.accountKey = b.accountKey → a.Held w.clock →
    b.Held w.clock → a = b
  own : ∀ key ∈ w.accountKeys, ∀ lock,
    (w.files.read? (accountLockPath key)).join = some lock → lock.accountKey = key

/-- What a renaming may do: grant a lock over none that is held, with a token of its own; or
change the lock that the file has, under its token. -/
def MayCommit (w : World) (c : Call) (lock : AccountLock) : Prop :=
  match c with
  | .acquire key _ _ => lock.accountKey = key ∧
      ∀ g ∈ w.granted, g.fencingToken ≠ lock.fencingToken ∧
        (g.accountKey = key → ¬ g.Held w.clock)
  | .renew key _ token _ | .release key token _ => ∃ stored, w.load c = some stored ∧
      stored.accountKey = key ∧ stored.fencingToken = token ∧ lock.fencingToken = token ∧
      lock.accountKey = key ∧ lock.ownerDispatchId = stored.ownerDispatchId ∧
      (lock.state = .active → stored.state = .active)

/-- **A rightful step**: where a call commits, it may do so. -/
def Rightful (s : State) : Action → Prop
  | .turn p =>
    match s.place p with
    | .written c _ lock =>
      (s.shared.files.rename (temporaryPath c.path) c.path).isSome = true →
        MayCommit s.shared c lock
    | _ => True
  | _ => True

/-! ### The invariant -/

/-- A call that has the advisory lock of the inode that its path has. -/
structure Inside (w : World) (p : ℕ) (c : Call) (inode : ℕ) : Prop where
  key : c.accountKey ∈ w.accountKeys
  holder : w.files.holder inode = some p
  named : w.files.named c.path = some inode

/-- What a call wrote to its temporary file. -/
structure Drafted (w : World) (c : Call) (lock : AccountLock) : Prop where
  temporary : w.files.read? (temporaryPath c.path) = some (some lock)
  follows : ∃ controller newToken now,
    c.document controller newToken now (w.load c) = some lock ∧
      (c.isAcquire = true → newToken < w.nextToken ∧ ∀ g ∈ w.granted, g.fencingToken ≠ newToken)

/-- What holds of the world at a place of a process. -/
def At (w : World) (p : ℕ) : Place → Prop
  | .idle => True
  | .opened c inode => c.accountKey ∈ w.accountKeys ∧ inode < w.files.next
  | .locked c inode => Inside w p c inode
  | .checked c inode existing =>
    Inside w p c inode ∧ w.load c = existing ∧ Passed c w.clock existing
  | .written c inode lock => Inside w p c inode ∧ Passed c w.clock (w.load c) ∧ Drafted w c lock
  | .leaving _ => True

/-- What holds of the world between the steps. -/
structure SoundWorld (w : World) : Prop where
  keys : ∀ k ∈ w.accountKeys, ∀ k' ∈ w.accountKeys, accountLockPath k = accountLockPath k' → k = k'
  stored : ∀ k lock, (w.files.read? (accountLockPath k)).join = some lock →
    lock ∈ w.granted ∧ accountLockPath lock.accountKey = accountLockPath k
  granted : ∀ g ∈ w.granted, g.fencingToken < w.nextToken ∧ g.accountKey ∈ w.accountKeys ∧
    ((w.files.read? (accountLockPath g.accountKey)).join = some g ∨ ¬ g.Held w.clock)
  once : ∀ g ∈ w.granted, ∀ g' ∈ w.granted, g.fencingToken = g'.fencingToken → g = g'

/-- The token that a process has drawn and not yet granted. -/
def Place.drawn? : Place → Option ℕ
  | .written c _ lock => if c.isAcquire then some lock.fencingToken else none
  | _ => none

/-- **The invariant**: no two processes have drawn one token. -/
structure Sound (s : State) : Prop where
  holds : Threads.Holds SoundWorld At s
  drawn : ∀ p q token, (s.place p).drawn? = some token → (s.place q).drawn? = some token → p = q

/-! ### Steps of the others -/

variable {w : World}

theorem Inside.path_ne {p : ℕ} {c c' : Call} {i j : ℕ} (h : Inside w p c i)
    (h' : Inside w q c' j) (hne : p ≠ q) : c.path ≠ c'.path := by
  intro heq
  have hnamed := h.named
  rw [heq, h'.named] at hnamed
  cases hnamed
  have hholder := h.holder
  rw [h'.holder] at hholder
  cases hholder
  exact hne rfl

/-- **What a process relies on** of the steps of the others. -/
structure Frame (w w' : World) (q : ℕ) (place : Place) : Prop where
  keys : ∀ k ∈ w.accountKeys, k ∈ w'.accountKeys
  clock : w.clock ≤ w'.clock
  next : w.files.next ≤ w'.files.next
  nextToken : w.nextToken ≤ w'.nextToken
  holder : ∀ i, w.files.holder i = some q → w'.files.holder i = some q
  files : ∀ c i, Inside w q c i → w'.files.named c.path = w.files.named c.path ∧
    w'.files.read? c.path = w.files.read? c.path ∧
    w'.files.read? (temporaryPath c.path) = w.files.read? (temporaryPath c.path)
  granted : ∀ token, place.drawn? = some token → ∀ g ∈ w'.granted,
    g ∈ w.granted ∨ g.fencingToken ≠ token

theorem At.frame {w w' : World} (hframe : Frame w w' q place) (h : At w q place) :
    At w' q place := by
  have hinside : ∀ c i, Inside w q c i → Inside w' q c i ∧ w'.load c = w.load c := by
    intro c i hin
    obtain ⟨hnamed, hread, -⟩ := hframe.files c i hin
    refine ⟨⟨hframe.keys _ hin.key, hframe.holder i hin.holder, hnamed.trans hin.named⟩, ?_⟩
    unfold World.load
    rw [hread]
  cases place with
  | idle => trivial
  | opened c i => exact ⟨hframe.keys _ h.1, Nat.lt_of_lt_of_le h.2 hframe.next⟩
  | locked c i => exact (hinside c i h).1
  | checked c i existing =>
    obtain ⟨hin, hload, hpassed⟩ := h
    obtain ⟨hin', hload'⟩ := hinside c i hin
    exact ⟨hin', hload'.trans hload, hpassed.later hframe.clock⟩
  | written c i lock =>
    obtain ⟨hin, hpassed, htemporary, controller, newToken, now, hdocument, hdrawn⟩ := h
    obtain ⟨hin', hload'⟩ := hinside c i hin
    refine ⟨hin', ?_, (hframe.files c i hin).2.2.trans htemporary, controller, newToken, now, ?_,
      fun hc => ?_⟩
    · rw [hload']
      exact hpassed.later hframe.clock
    · rw [hload']
      exact hdocument
    · obtain ⟨hlt, hfresh⟩ := hdrawn hc
      refine ⟨Nat.lt_of_lt_of_le hlt hframe.nextToken, fun g hg => ?_⟩
      have htoken : (Place.written c i lock).drawn? = some newToken := by
        show (if c.isAcquire = true then some lock.fencingToken else none) = some newToken
        rw [if_pos hc, (document_of_acquire hc hdocument).1]
      rcases hframe.granted newToken htoken g hg with hold | hne
      · exact hfresh g hold
      · exact hne
  | leaving i => trivial

theorem At.drawn {token : ℕ} (h : At w q place)
    (htoken : place.drawn? = some token) :
    token < w.nextToken ∧ ∀ g ∈ w.granted, g.fencingToken ≠ token := by
  cases place with
  | written c inode lock =>
    obtain ⟨-, -, -, controller, newToken, now, hdocument, hdrawn⟩ := h
    unfold Place.drawn? at htoken
    simp only at htoken
    split at htoken
    · rename_i hc
      cases htoken
      rw [(document_of_acquire hc hdocument).1]
      exact hdrawn hc
    · cases htoken
  | idle => cases htoken
  | opened _ _ => cases htoken
  | locked _ _ => cases htoken
  | checked _ _ _ => cases htoken
  | leaving _ => cases htoken

theorem Frame.of_locks {files : Inodes Path (Option AccountLock)}
    (hnamed : files.named = w.files.named) (hread : files.read? = w.files.read?)
    (hnext : files.next = w.files.next)
    (hholder : ∀ i, w.files.holder i = some q → files.holder i = some q) :
    Frame w { w with files } q place where
  keys _ hk := hk
  clock := Int.le_refl _
  next := Nat.le_of_eq hnext.symm
  nextToken := Nat.le_refl _
  holder := hholder
  files _ _ _ := ⟨congrFun hnamed _, congrFun hread _, congrFun hread _⟩
  granted _ _ _ hg := .inl hg

theorem SoundWorld.of_locks (h : SoundWorld w)
    {files : Inodes Path (Option AccountLock)} (hread : files.read? = w.files.read?) :
    SoundWorld { w with files } where
  keys := h.keys
  stored k lock hlock := by
    rw [show ({ w with files } : World).files.read? = w.files.read? from hread] at hlock
    exact h.stored k lock hlock
  granted g hg := by
    rw [show ({ w with files } : World).files.read? = w.files.read? from hread]
    exact h.granted g hg
  once := h.once

/-! ### Steps -/

variable {w : World} {p : ℕ}

theorem tick_sound (h : SoundWorld w) (elapsed : ℕ) :
    SoundWorld { w with clock := w.clock + elapsed } :=
  { h with
    granted g hg := by
      obtain ⟨htoken, hkey, hor⟩ := h.granted g hg
      refine ⟨htoken, hkey, hor.imp id fun hnot hheld => hnot (hheld.earlier ?_)⟩
      simp only
      omega }

theorem open_sound (h : SoundWorld w)
    (hcurrent : ∀ key ∈ w.accountKeys, accountLockPath key = c.path → key = c.accountKey) :
    SoundWorld { w with
      files := (w.files.openFile c.path none).2
      accountKeys := c.accountKey :: w.accountKeys } := by
  have hread : ∀ k, ((w.files.openFile c.path none).2.read? k).join = (w.files.read? k).join := by
    intro k
    rcases @Inodes.openFile_read? _ _ _ w.files c.path k none with hsame | ⟨-, hold, hnew⟩
    · rw [hsame]
    · rw [hnew]
      unfold Inodes.read?
      rw [hold]
      rfl
  constructor
  · intro k hk k' hk' heq
    rcases List.mem_cons.mp hk with rfl | hk <;> rcases List.mem_cons.mp hk' with rfl | hk'
    · rfl
    · exact (hcurrent k' hk' heq.symm).symm
    · exact hcurrent k hk heq
    · exact h.keys k hk k' hk' heq
  · intro k lock hlock
    simp only [hread] at hlock
    exact h.stored k lock hlock
  · intro g hg
    obtain ⟨htoken, hkey, hor⟩ := h.granted g hg
    simp only [hread]
    exact ⟨htoken, List.mem_cons_of_mem _ hkey, hor⟩
  · exact h.once

theorem draft_sound (h : SoundWorld w) (c : Call) (lock : AccountLock) {nextToken : ℕ}
    (htoken : w.nextToken ≤ nextToken) :
    SoundWorld { w with
      files := w.files.writeFile (temporaryPath c.path) (some lock)
      nextToken } := by
  have hread : ∀ k, (w.files.writeFile (temporaryPath c.path) (some lock)).read?
      (accountLockPath k) = w.files.read? (accountLockPath k) := fun k =>
    Inodes.writeFile_read?_of_ne _ (accountLockPath_ne_temporaryPath k _)
  refine ⟨h.keys, fun k stored hstored => ?_, fun g hg => ?_, h.once⟩
  · simp only [hread] at hstored
    exact h.stored k stored hstored
  · obtain ⟨hlt, hkey, hor⟩ := h.granted g hg
    simp only [hread]
    exact ⟨Nat.lt_of_lt_of_le hlt htoken, hkey, hor⟩

theorem draft_frame {i : ℕ} (hin : Inside w p c i) (hne : p ≠ q)
    (lock : AccountLock) {nextToken : ℕ} (htoken : w.nextToken ≤ nextToken) :
    Frame w { w with
      files := w.files.writeFile (temporaryPath c.path) (some lock)
      nextToken } q place where
  keys _ hk := hk
  clock := Int.le_refl _
  next := Inodes.writeFile_next _
  nextToken := htoken
  holder j hj := by
    simp only [Inodes.writeFile_holder]
    exact hj
  files c' j hin' := by
    have hpath : c'.path ≠ temporaryPath c.path := accountLockPath_ne_temporaryPath _ _
    have htemporary : temporaryPath c'.path ≠ temporaryPath c.path := fun heq =>
      hin.path_ne hin' hne (temporaryPath_inj heq).symm
    exact ⟨Inodes.writeFile_named_of_ne _ hpath, Inodes.writeFile_read?_of_ne _ hpath,
      Inodes.writeFile_read?_of_ne _ htemporary⟩
  granted _ _ _ hg := .inl hg

/-! ### The renaming -/

section Commit

variable {c : Call} {i : ℕ} {lock : AccountLock} {files : Inodes Path (Option AccountLock)}

section

variable (h : SoundWorld w) (hin : Inside w p c i)
include h hin

theorem Drafted.accountKey (hdrafted : Drafted w c lock) :
    lock.accountKey = c.accountKey := by
  obtain ⟨controller, newToken, now, hdocument, -⟩ := hdrafted.follows
  cases hc : c.isAcquire with
  | true => exact (document_of_acquire hc hdocument).2
  | false =>
    obtain ⟨stored, hstored, -, hkey, -⟩ := document_of_not_acquire hc hdocument
    obtain ⟨hgranted, hpath⟩ := h.stored _ stored hstored
    rw [hkey]
    exact h.keys _ (h.granted stored hgranted).2.1 _ hin.key hpath

/-- **A call may commit** what it has drafted. -/
theorem mayCommit_of_drafted (hpassed : Passed c w.clock (w.load c))
    (hdrafted : Drafted w c lock) : MayCommit w c lock := by
  have hkey := hdrafted.accountKey h hin
  obtain ⟨controller, newToken, now, hdocument, hdrawn⟩ := hdrafted.follows
  have hchanges : ∀ token, c.isAcquire = false →
      (∃ stored, w.load c = some stored ∧ stored.fencingToken = token) →
      ∃ stored, w.load c = some stored ∧ stored.accountKey = c.accountKey ∧
        stored.fencingToken = token ∧ lock.fencingToken = token ∧
        lock.accountKey = c.accountKey ∧ lock.ownerDispatchId = stored.ownerDispatchId ∧
        (lock.state = .active → stored.state = .active) := by
    rintro token hc ⟨stored, hstored, htoken⟩
    obtain ⟨stored', hstored', htoken', hkey', howner, hstate⟩ := document_of_not_acquire hc hdocument
    rw [hstored] at hstored'
    cases hstored'
    exact ⟨stored, hstored, hkey'.symm.trans hkey, htoken, htoken'.trans htoken, hkey, howner, hstate⟩
  cases c with
  | acquire key owner ttlS =>
    have htoken := (document_of_acquire rfl hdocument).1
    refine ⟨hkey, fun g hg => ⟨?_, fun hsame hheld => ?_⟩⟩
    · rw [htoken]
      exact (hdrawn rfl).2 g hg
    · rcases (h.granted g hg).2.2 with hstored | hnot
      · rw [hsame] at hstored
        exact hpassed g hstored hheld
      · exact hnot hheld
  | renew key owner token ttlS =>
    obtain ⟨stored, hstored, -, -, htoken⟩ := hpassed
    exact hchanges token rfl ⟨stored, hstored, htoken⟩
  | release key token reason => exact hchanges token rfl hpassed

theorem other_of_drafted (hpassed : Passed c w.clock (w.load c)) (hdrafted : Drafted w c lock)
    {g : AccountLock} (hg : g ∈ w.granted) (htoken : g.fencingToken ≠ lock.fencingToken)
    (hkey : g.accountKey = c.accountKey) : ¬ g.Held w.clock := by
  rcases (h.granted g hg).2.2 with hstored | hnot
  · have hload : w.load c = some g := by
      unfold World.load Call.path
      rw [← hkey]
      exact hstored
    obtain ⟨controller, newToken, now, hdocument, -⟩ := hdrafted.follows
    cases hc : c.isAcquire with
    | true =>
      cases c with
      | acquire key owner ttlS => exact hpassed g hload
      | renew key owner token ttlS => cases hc
      | release key token reason => cases hc
    | false =>
      obtain ⟨stored, hstored', hsame, -⟩ := document_of_not_acquire hc hdocument
      rw [hload] at hstored'
      cases hstored'
      exact absurd hsame.symm htoken
  · exact hnot

end

theorem path_of_same_token (h : SoundWorld w) (hdrafted : Drafted w c lock) {g : AccountLock}
    (hg : g ∈ w.granted) (htoken : g.fencingToken = lock.fencingToken) :
    accountLockPath g.accountKey = c.path := by
  obtain ⟨controller, newToken, now, hdocument, hdrawn⟩ := hdrafted.follows
  cases hc : c.isAcquire with
  | true =>
    rw [(document_of_acquire hc hdocument).1] at htoken
    exact absurd htoken ((hdrawn hc).2 g hg)
  | false =>
    obtain ⟨stored, hstored, hsame, -⟩ := document_of_not_acquire hc hdocument
    obtain ⟨hgranted, hpath⟩ := h.stored _ stored hstored
    rw [h.once g hg stored hgranted (htoken.trans hsame)]
    exact hpath

theorem mem_grant {granted : List AccountLock} {g : AccountLock} :
    g ∈ grant granted lock ↔
      g = lock ∨ (g ∈ granted ∧ g.fencingToken ≠ lock.fencingToken) := by
  unfold grant
  rw [List.mem_cons, List.mem_filter, decide_eq_true_eq]

/-- **What a renaming leaves.** -/
theorem commit_sound (h : SoundWorld w) (hin : Inside w p c i)
    (hpassed : Passed c w.clock (w.load c)) (hdrafted : Drafted w c lock)
    (hrename : w.files.rename (temporaryPath c.path) c.path = some files) :
    SoundWorld { w with files, granted := grant w.granted lock } := by
  obtain ⟨htarget, hothers, -, -⟩ := Inodes.rename_spec hrename
  rw [hdrafted.temporary] at htarget
  have hkey := hdrafted.accountKey h hin
  have hread : ∀ k, accountLockPath k ≠ c.path →
      files.read? (accountLockPath k) = w.files.read? (accountLockPath k) := fun k hk =>
    (hothers _ (accountLockPath_ne_temporaryPath k _) hk).2
  have htoken : lock.fencingToken < w.nextToken := by
    obtain ⟨controller, newToken, now, hdocument, hdrawn⟩ := hdrafted.follows
    cases hc : c.isAcquire with
    | true =>
      rw [(document_of_acquire hc hdocument).1]
      exact (hdrawn hc).1
    | false =>
      obtain ⟨stored, hstored, hsame, -⟩ := document_of_not_acquire hc hdocument
      rw [hsame]
      exact (h.granted stored (h.stored _ stored hstored).1).1
  refine ⟨h.keys, fun k stored hstored => ?_, fun g hg => ?_, fun g hg g' hg' heq => ?_⟩
  · simp only at hstored
    by_cases hpath : accountLockPath k = c.path
    · rw [hpath, htarget] at hstored
      cases hstored
      refine ⟨mem_grant.mpr (.inl rfl), ?_⟩
      rw [hkey]
      exact hpath.symm
    · rw [hread k hpath] at hstored
      obtain ⟨hgranted, hsame⟩ := h.stored k stored hstored
      refine ⟨mem_grant.mpr (.inr ⟨hgranted, fun htok => hpath ?_⟩), hsame⟩
      rw [← hsame]
      exact path_of_same_token h hdrafted hgranted htok
  · rcases mem_grant.mp hg with rfl | ⟨hold, hne⟩
    · refine ⟨htoken, by rw [hkey]; exact hin.key, .inl ?_⟩
      simp only
      rw [hkey, show accountLockPath c.accountKey = c.path from rfl, htarget]
      rfl
    · obtain ⟨hlt, hmem, hor⟩ := h.granted g hold
      refine ⟨hlt, hmem, ?_⟩
      by_cases hpath : accountLockPath g.accountKey = c.path
      · exact .inr (other_of_drafted h hin hpassed hdrafted hold hne
          (h.keys _ hmem _ hin.key hpath))
      · simp only
        rw [hread _ hpath]
        exact hor
  · rcases mem_grant.mp hg with rfl | ⟨hold, hne⟩ <;> rcases mem_grant.mp hg' with rfl | ⟨hold', hne'⟩
    · rfl
    · exact absurd heq.symm hne'
    · exact absurd heq hne
    · exact h.once g hold g' hold' heq

theorem commit_frame (hin : Inside w p c i) (hne : p ≠ q)
    (hrename : w.files.rename (temporaryPath c.path) c.path = some files)
    (hdrawn : ∀ token, place.drawn? = some token → lock.fencingToken ≠ token) :
    Frame w { w with files, granted := grant w.granted lock } q place := by
  obtain ⟨-, hothers, hholder, hnext⟩ := Inodes.rename_spec hrename
  refine ⟨fun _ hk => hk, Int.le_refl _, Nat.le_of_eq hnext.symm, Nat.le_refl _, fun j hj => ?_,
    fun c' j hin' => ?_, fun token htoken g hg => ?_⟩
  · simp only
    rw [hholder]
    exact hj
  · have hpath : c'.path ≠ temporaryPath c.path := accountLockPath_ne_temporaryPath _ _
    have htemporary : temporaryPath c'.path ≠ c.path :=
      (accountLockPath_ne_temporaryPath _ _).symm
    have hapart := (hin.path_ne hin' hne).symm
    obtain ⟨hnamed, hread⟩ := hothers c'.path hpath hapart
    exact ⟨hnamed, hread, (hothers _ (fun heq => hapart (temporaryPath_inj heq)) htemporary).2⟩
  · rcases mem_grant.mp hg with rfl | ⟨hold, -⟩
    · exact .inr (hdrawn token htoken)
    · exact .inl hold

end Commit

/-! ### Runs -/

variable {s : State}

/-- **A turn** that the others can rely on. -/
theorem Sound.turn (h : Sound s) {p : ℕ} {next : World × Place} (hworld : SoundWorld next.1)
    (hown : At next.1 p next.2) (hframe : ∀ q, q ≠ p → Frame s.shared next.1 q (s.place q))
    (hdrawn : ∀ q, q ≠ p → ∀ token, next.2.drawn? = some token →
      (s.place q).drawn? ≠ some token) : Sound (s.turn p next) := by
  refine ⟨h.holds.turn hworld hown fun q hq hat => hat.frame (hframe q hq), ?_⟩
  intro q q' token hq hq'
  by_cases hqp : q = p <;> by_cases hqp' : q' = p
  · rw [hqp, hqp']
  · subst hqp
    rw [s.turn_place_self] at hq
    rw [s.turn_place_of_ne hqp'] at hq'
    exact absurd hq' (hdrawn q' hqp' token hq)
  · subst hqp'
    rw [s.turn_place_self] at hq'
    rw [s.turn_place_of_ne hqp] at hq
    exact absurd hq (hdrawn q hqp token hq')
  · rw [s.turn_place_of_ne hqp] at hq
    rw [s.turn_place_of_ne hqp'] at hq'
    exact h.drawn q q' token hq hq'

theorem Frame.refl (w : World) (q : ℕ) (place : Place) : Frame w w q place :=
  ⟨fun _ hk => hk, Int.le_refl _, Nat.le_refl _, Nat.le_refl _, fun _ hj => hj,
    fun _ _ _ => ⟨rfl, rfl, rfl⟩, fun _ _ _ hg => .inl hg⟩

theorem Sound.move (h : Sound s) {p : ℕ} (hown : At s.shared p place)
    (hdrawn : place.drawn? = none) : Sound (s.turn p (s.shared, place)) := by
  refine h.turn h.holds.inv hown (fun q _ => Frame.refl _ _ _) fun q _ token htoken => ?_
  rw [hdrawn] at htoken
  cases htoken

theorem Sound.unlock (h : Sound s) (p inode : ℕ) :
    Sound (s.turn p ({ s.shared with files := s.shared.files.unlock inode p }, .idle)) := by
  have hread : (s.shared.files.unlock inode p).read? = s.shared.files.read? :=
    funext fun _ => Inodes.unlock_read?
  obtain ⟨hnamed, -, hnext⟩ := @Inodes.unlock_spec _ _ s.shared.files inode p
  refine h.turn (h.holds.inv.of_locks hread) trivial (fun q hq => ?_) fun q _ token htoken => ?_
  · exact Frame.of_locks hnamed hread hnext fun j hj => Inodes.unlock_holder_of_ne hq hj
  · cases htoken

/-- **A call's next step.** -/
theorem turn_sound (h : Sound s) {p : ℕ} (hcurrent : Current s (.turn p)) :
    Sound (s.turn p (turn controllerId p s.shared (s.place p))) ∧ Rightful s (.turn p) := by
  have hat := h.holds.ok p
  unfold Rightful
  unfold Current at hcurrent
  simp only at hcurrent ⊢
  cases hplace : s.place p with
  | idle => exact ⟨h.move trivial rfl, trivial⟩
  | opened c inode =>
    rw [hplace] at hat hcurrent
    refine ⟨?_, trivial⟩
    unfold Fleet.turn
    simp only
    split
    · rename_i hfree
      have hnamed := hcurrent hfree
      refine h.turn (h.holds.inv.of_locks rfl) ⟨hat.1, Function.update_self .., hnamed⟩
        (fun q hq => ?_) fun q _ token htoken => by cases htoken
      exact Frame.of_locks rfl rfl rfl fun j hj => Inodes.lock_holder_of_ne hfree hj
    · exact h.move hat rfl
  | locked c inode =>
    rw [hplace] at hat
    refine ⟨?_, trivial⟩
    unfold Fleet.turn
    simp only
    split
    · rename_i hcheck
      exact h.move ⟨hat, rfl, passed_of_check hcheck⟩ rfl
    · exact h.move trivial rfl
  | checked c inode existing =>
    rw [hplace] at hat
    obtain ⟨hin, hload, hpassed⟩ := hat
    refine ⟨?_, trivial⟩
    unfold Fleet.turn
    simp only
    split
    · exact h.move trivial rfl
    · rename_i lock hdocument
      have hle : s.shared.nextToken ≤
          if c.isAcquire = true then s.shared.nextToken + 1 else s.shared.nextToken := by
        split
        · exact Nat.le_succ _
        · exact Nat.le_refl _
      have hpath : ∀ k, accountLockPath k ≠ temporaryPath c.path := fun k =>
        accountLockPath_ne_temporaryPath k _
      have hload' : (({ s.shared with
          files := s.shared.files.writeFile (temporaryPath c.path) (some lock) } :
            World).load c) = s.shared.load c := by
        exact congrArg Option.join (Inodes.writeFile_read?_of_ne _ (hpath c.accountKey))
      refine h.turn (draft_sound h.holds.inv c lock hle) ⟨⟨hin.key, ?_, ?_⟩, ?_, ?_⟩
        (fun q hq => draft_frame hin (Ne.symm hq) lock hle) fun q hq token htoken hother => ?_
      · simp only [Inodes.writeFile_holder]
        exact hin.holder
      · exact (Inodes.writeFile_named_of_ne _ (hpath c.accountKey)).trans hin.named
      · show Passed c s.shared.clock (World.load { s.shared with
          files := s.shared.files.writeFile (temporaryPath c.path) (some lock) } c)
        rw [hload', hload]
        exact hpassed
      · refine ⟨Inodes.writeFile_read?_self _, controllerId p, s.shared.nextToken,
          s.shared.clock, ?_, fun hc => ⟨?_, fun g hg => ?_⟩⟩
        · show c.document _ _ _ (World.load { s.shared with
            files := s.shared.files.writeFile (temporaryPath c.path) (some lock) } c) = some lock
          rw [hload', hload]
          exact hdocument
        · simp only [hc, if_true]
          exact Nat.lt_succ_self _
        · exact Nat.ne_of_lt (h.holds.inv.granted g hg).1
      · -- a token that another has drawn is an old one
        simp only [Place.drawn?] at htoken
        split at htoken
        · rename_i hc
          cases htoken
          rw [(document_of_acquire hc hdocument).1] at hother
          exact absurd ((h.holds.ok q).drawn hother).1 (Nat.lt_irrefl _)
        · cases htoken
  | written c inode lock =>
    rw [hplace] at hat
    obtain ⟨hin, hpassed, hdrafted⟩ := hat
    refine ⟨?_, fun _ => mayCommit_of_drafted h.holds.inv hin hpassed hdrafted⟩
    unfold Fleet.turn
    simp only
    split
    · exact h.move trivial rfl
    · rename_i files hrename
      refine h.turn (commit_sound h.holds.inv hin hpassed hdrafted hrename) trivial
        (fun q hq => commit_frame hin (Ne.symm hq) hrename fun token htoken heq => ?_)
        fun q _ token htoken => by cases htoken
      -- what another has drawn is neither granted nor what this one has drawn
      cases hc : c.isAcquire with
      | true =>
        refine hq (h.drawn q p token htoken ?_)
        rw [hplace, ← heq]
        exact if_pos hc
      | false =>
        obtain ⟨controller, newToken, now, hdocument, -⟩ := hdrafted.follows
        obtain ⟨stored, hstored, hsame, -⟩ := document_of_not_acquire hc hdocument
        have hgranted := (h.holds.inv.stored _ stored hstored).1
        exact ((h.holds.ok q).drawn htoken).2 stored hgranted (hsame.symm.trans heq)
  | leaving inode => exact ⟨h.unlock p inode, trivial⟩

/-- **A step** that meets the condition is rightful, and keeps the invariant. -/
theorem step_sound (h : Sound s) {a : Action} (hcurrent : Current s a) :
    Sound (step controllerId s a) ∧ Rightful s a := by
  cases a with
  | tick elapsed =>
    have hframe : ∀ q place, Frame s.shared { s.shared with clock := s.shared.clock + elapsed } q
        place := fun q place =>
      ⟨fun _ hk => hk, Int.le_add_of_nonneg_right (Int.natCast_nonneg _), Nat.le_refl _,
        Nat.le_refl _, fun _ hj => hj, fun _ _ _ => ⟨rfl, rfl, rfl⟩, fun _ _ _ hg => .inl hg⟩
    refine ⟨⟨h.holds.environment (tick_sound h.holds.inv elapsed) fun q place hat =>
      hat.frame (hframe q place), h.drawn⟩, trivial⟩
  | call p c =>
    refine ⟨?_, trivial⟩
    unfold Fleet.step
    simp only
    split
    · refine h.turn (open_sound h.holds.inv hcurrent) ⟨List.mem_cons_self,
        Inodes.openFile_lt none⟩ (fun q _ => ?_) fun q _ token htoken => by cases htoken
      refine ⟨fun _ hk => List.mem_cons_of_mem _ hk, Int.le_refl _, Inodes.openFile_next none,
        Nat.le_refl _, fun j hj => ?_, fun c' j hin => ?_, fun _ _ _ hg => .inl hg⟩
      · simp only [Inodes.openFile_holder]
        exact hj
      · refine ⟨(Inodes.openFile_named_of_some none hin.named).trans hin.named.symm, ?_, ?_⟩
        · refine (@Inodes.openFile_read? _ _ _ s.shared.files c.path c'.path none).resolve_right ?_
          rintro ⟨-, hnone, -⟩
          rw [hin.named] at hnone
          cases hnone
        · refine (@Inodes.openFile_read? _ _ _ s.shared.files c.path
            (temporaryPath c'.path) none).resolve_right ?_
          rintro ⟨heq, -⟩
          exact accountLockPath_ne_temporaryPath _ _ heq.symm
    · exact h
  | turn p => exact turn_sound h hcurrent
  | die p =>
    refine ⟨?_, trivial⟩
    unfold Fleet.step
    simp only
    split
    · exact h
    · exact h.unlock p _

theorem start_sound : Sound State.start where
  holds := {
    inv := {
      keys := nofun
      stored := fun _ _ hlock => by cases hlock
      granted := nofun
      once := nofun }
    ok := fun _ => trivial }
  drawn _ _ _ h := by cases h

theorem SoundWorld.oneHolder (h : SoundWorld w) : OneHolder w where
  one a ha b hb hkey hheld hheld' := by
    have hstored := (h.granted a ha).2.2.resolve_right (not_not.mpr hheld)
    have hstored' := (h.granted b hb).2.2.resolve_right (not_not.mpr hheld')
    rw [hkey, hstored'] at hstored
    exact (Option.some.inj hstored).symm
  own key hkey lock hlock := by
    obtain ⟨hgranted, hpath⟩ := h.stored key lock hlock
    exact h.keys _ (h.granted lock hgranted).2.1 key hkey hpath

/-- **One account, one holder.**  In a run in which the advisory lock is granted on the inode that
the path has, and no two accounts have one file, an account has one holder in every state, and
every step is rightful: a lock is granted only where none is held, and is renewed and released
only under its own token. -/
theorem account_one_holder (controllerId : ℕ → String) (actions : List Action)
    (hmeets : Machine.Meets (step controllerId) Current State.start actions) :
    OneHolder (Machine.run (step controllerId) State.start actions).shared ∧
      Machine.Meets (step controllerId) Rightful State.start actions := by
  have hstep : ∀ s a, Sound s → Current s a → Sound (step controllerId s a) ∧ Rightful s a :=
    fun _ _ hs hok => step_sound hs hok
  have hsound : Sound (Machine.run (step controllerId) State.start actions) :=
    Machine.run_invariant_of_meets (fun s a hs hok => (hstep s a hs hok).1) start_sound hmeets
  exact ⟨hsound.holds.inv.oneHolder, Machine.meets_of_invariant hstep start_sound hmeets⟩

instance (s : State) (a : Action) : Decidable (Current s a) := by
  unfold Current
  cases a with
  | turn p => simp only; cases s.place p <;> infer_instance
  | tick _ => infer_instance
  | call _ _ => infer_instance
  | die _ => infer_instance

/-- A process acquires, renews and releases a lock, while another waits. -/
def oneAfterTheOther : List Action :=
  [.call 1 (.acquire "claude/main" "d-1" 60)] ++ List.replicate 5 (.turn 1) ++
    [.tick 1000000, .call 1 (.renew "claude/main" "d-1" 0 60), .turn 1,
      .call 2 (.acquire "codex/main" "d-2" 60)] ++
    List.replicate 5 (.turn 2) ++ List.replicate 4 (.turn 1) ++
    [.call 1 (.release "claude/main" 0 "released")] ++ List.replicate 5 (.turn 1)

theorem oneAfterTheOther_one_holder :
    let s := Machine.run (step fun _ => "host:1") State.start oneAfterTheOther
    OneHolder s.shared ∧
      Machine.Meets (step fun _ => "host:1") Rightful State.start oneAfterTheOther :=
  account_one_holder _ oneAfterTheOther (by decide +kernel)

/-- The third process acquires the expired lock of the first.  So does the second, which has waited
for the advisory lock of the file that the first replaced. -/
def staleInode : List Action :=
  [.call 1 (.acquire "claude/main" "d-1" 1), .call 2 (.acquire "claude/main" "d-2" 3600)] ++
    List.replicate 5 (.turn 1) ++
    [.tick 2500000, .call 3 (.acquire "claude/main" "d-3" 3600), .turn 2, .turn 3, .turn 2,
      .turn 3, .turn 2, .turn 2, .turn 3, .turn 3]

/-- The accounts `claude/main` and `claude__main` have one file. -/
def lossyPath : List Action :=
  .call 1 (.acquire "claude/main" "d-1" 60) :: List.replicate 5 (.turn 1) ++
    [.call 2 (.acquire "claude__main" "d-2" 60)]

/-- **Two holders of one account, and two accounts with one lock.** -/
theorem stale_inode_two_holders :
    ¬ OneHolder (Machine.run (step fun _ => "host:1") State.start staleInode).shared ∧
      ¬ OneHolder (Machine.run (step fun _ => "host:1") State.start lossyPath).shared := by
  have htwo : ∃ a ∈ (Machine.run (step fun _ => "host:1") State.start staleInode).shared.granted,
      ∃ b ∈ (Machine.run (step fun _ => "host:1") State.start staleInode).shared.granted,
        a.accountKey = b.accountKey ∧
        a.Held (Machine.run (step fun _ => "host:1") State.start staleInode).shared.clock ∧
        b.Held (Machine.run (step fun _ => "host:1") State.start staleInode).shared.clock ∧
        a ≠ b := by
    decide +kernel
  have hshared : (((Machine.run (step fun _ => "host:1") State.start lossyPath).shared.files.read?
      (accountLockPath "claude__main")).join.map AccountLock.accountKey) = some "claude/main" := by
    decide +kernel
  constructor
  · intro h
    obtain ⟨a, ha, b, hb, hkey, hheld, hheld', hne⟩ := htwo
    exact hne (h.one a ha b hb hkey hheld hheld')
  · intro h
    obtain ⟨lock, hlock, hkey⟩ := Option.map_eq_some_iff.mp hshared
    have hmem : "claude__main" ∈
        (Machine.run (step fun _ => "host:1") State.start lossyPath).shared.accountKeys := by
      decide +kernel
    have hown := h.own "claude__main" hmem lock hlock
    rw [hkey] at hown
    exact absurd hown (by decide)

end GoalFlight.Fleet
