import GoalFlight.Acp.Permits

/-!
# ACP: what an open permission relies on

What holds of a permission directory at each place of a call, and that a turn keeps it.  The others
must leave the request of an open hold, and the decision that can be read; all that a turn does
keeps to this, but for a sweep and for the removals of `write_decision`.
-/

namespace GoalFlight.Acp

open PermissionDir

variable {inode : ℕ} {path : PermitPath} {outcome : HoldOutcome} {content : Option Decision}

/-! ### Reading and removing -/

section Dir

variable {dir : PermissionDir} {key k : String} {d : Decision} {now : ℚ} {p i : ℕ}

@[simp] theorem putDecision_self (file : Option (Stamped Node)) :
    (dir.putDecision key file).decision key = file := Function.update_self ..

theorem putDecision_of_ne (file : Option (Stamped Node)) (hne : k ≠ key) :
    (dir.putDecision key file).decision k = dir.decision k := Function.update_of_ne hne ..

theorem readDecision_congr {dir' : PermissionDir} (h : dir'.decision k = dir.decision k) :
    dir'.readDecision k = dir.readDecision k := by
  unfold readDecision
  rw [h]

theorem readDecision_of_none (h : dir.decision k = none) : dir.readDecision k = none := by
  unfold readDecision
  rw [h]
  rfl

theorem key_of_readDecision (h : dir.readDecision k = some d) : d.key = k := by
  unfold readDecision at h
  split at h
  · split at h
    · cases h
      assumption
    · cases h
  · cases h

theorem isSome_of_readDecision (h : dir.readDecision k = some d) : (dir.decision k).isSome := by
  cases hfile : dir.decision k with
  | some file => rfl
  | none =>
    rw [readDecision_of_none hfile] at h
    cases h

theorem unlinkDecision_of_ne (hne : k ≠ key) :
    (dir.unlinkDecision key).decision k = dir.decision k := by
  unfold unlinkDecision
  split
  · rfl
  · exact putDecision_of_ne none hne

theorem unlinkDecision_request : (dir.unlinkDecision key).request = dir.request := by
  unfold unlinkDecision
  split <;> rfl

theorem readDecision_unlink_self (h : dir.readDecision key = none) :
    (dir.unlinkDecision key).readDecision key = none := by
  unfold unlinkDecision
  split
  · exact h
  · exact readDecision_of_none (putDecision_self none)

end Dir

/-! ### What holds at each place -/

/-- **An open hold**: the key is its own, and what can be read is the first decision that could. -/
structure OpenHold (dir : PermissionDir) (p : ℕ) (h : Hold) : Prop where
  opener : dir.opener h.key = some p
  first : dir.readDecision h.key = dir.firstReadable h.key

/-- The request of a hold is there and small enough. -/
def Published (dir : PermissionDir) (key : String) : Prop :=
  (dir.request key).any Stamped.content = true

/-- What holds of the directory between the steps. -/
structure SoundDir (dir : PermissionDir) : Prop where
  inodes : ∀ key inode content, (dir.decision key).map Stamped.content =
    some (.regular inode content) → inode < dir.nextInode
  authors : ∀ inode, dir.nextInode ≤ inode → dir.author inode = none

/-- What decided a hold was the first decision for its key that could be read. -/
def ByFirst (dir : PermissionDir) (h : Hold) (outcome : HoldOutcome) : Prop :=
  ∀ d, outcome = .decided d → dir.firstReadable h.key = some d ∧ d.key = h.key

/-- **What holds at each place.** -/
def At (dir : PermissionDir) (p : ℕ) : Place → Prop
  | .holding h _ .writeRequest => OpenHold dir p h
  | .holding h _ _ => OpenHold dir p h ∧ Published dir h.key
  | .clearing h outcome left =>
    dir.opener h.key = some p ∧ left <:+ filesOf h.key ∧ ByFirst dir h outcome
  | .returned h outcome => ByFirst dir h outcome
  | .writing d (.fill inode) =>
    dir.author inode = some p ∧ ∀ content,
      (dir.decision d.key).map Stamped.content = some (.regular inode content) → content = none
  | _ => True

/-- The key that a place holds open. -/
def Place.open? : Place → Option String
  | .holding h _ _ => some h.key
  | _ => none

/-- **What a call relies on** of the steps of the others. -/
structure Frame (dir dir' : PermissionDir) (q : ℕ) (place : Place) : Prop where
  opener : ∀ key, dir.opener key = some q → dir'.opener key = some q
  author : ∀ inode, dir.author inode = some q → dir'.author inode = some q
  first : ∀ key d, dir.firstReadable key = some d → dir'.firstReadable key = some d
  open_ : ∀ key, place.open? = some key → dir.opener key = some q →
    dir.readDecision key = dir.firstReadable key →
      dir'.readDecision key = dir'.firstReadable key ∧
        (Published dir key → Published dir' key)
  written : ∀ key inode content, dir.author inode = some q →
    (dir'.decision key).map Stamped.content = some (.regular inode content) →
      (dir.decision key).map Stamped.content = some (.regular inode content)

theorem ByFirst.frame {dir dir' : PermissionDir} {q : ℕ} {place : Place} {h : Hold}
    (hframe : Frame dir dir' q place) (hfirst : ByFirst dir h outcome) :
    ByFirst dir' h outcome :=
  fun d hd => ⟨hframe.first _ _ (hfirst d hd).1, (hfirst d hd).2⟩

theorem At.frame {dir dir' : PermissionDir} {q : ℕ} {place : Place}
    (hframe : Frame dir dir' q place) (h : At dir q place) : At dir' q place := by
  have hopen : ∀ hold acked pc, place = .holding hold acked pc → OpenHold dir q hold →
      OpenHold dir' q hold ∧ (Published dir hold.key → Published dir' hold.key) := by
    intro hold acked pc hplace hold'
    obtain ⟨hfirst, hpublished⟩ := hframe.open_ hold.key (by rw [hplace]; rfl) hold'.opener
      hold'.first
    exact ⟨⟨hframe.opener _ hold'.opener, hfirst⟩, hpublished⟩
  match place, h with
  | .idle, _ => trivial
  | .holding hold acked .writeRequest, h => exact (hopen hold acked _ rfl h).1
  | .holding hold acked .readDecision, h =>
    exact ⟨(hopen hold acked _ rfl h.1).1, (hopen hold acked _ rfl h.1).2 h.2⟩
  | .holding hold acked .readAck, h =>
    exact ⟨(hopen hold acked _ rfl h.1).1, (hopen hold acked _ rfl h.1).2 h.2⟩
  | .holding hold acked .checkDeadline, h =>
    exact ⟨(hopen hold acked _ rfl h.1).1, (hopen hold acked _ rfl h.1).2 h.2⟩
  | .holding hold acked .readAgain, h =>
    exact ⟨(hopen hold acked _ rfl h.1).1, (hopen hold acked _ rfl h.1).2 h.2⟩
  | .holding hold acked .sleep, h =>
    exact ⟨(hopen hold acked _ rfl h.1).1, (hopen hold acked _ rfl h.1).2 h.2⟩
  | .clearing hold outcome left, h =>
    exact ⟨hframe.opener _ h.1, h.2.1, ByFirst.frame hframe h.2.2⟩
  | .returned hold outcome, h => exact ByFirst.frame hframe h
  | .writing d (.fill inode), h =>
    exact ⟨hframe.author _ h.1, fun content hcontent =>
      h.2 content (hframe.written _ _ _ h.1 hcontent)⟩
  | .writing d .look, _ => trivial
  | .writing d .readDecision, _ => trivial
  | .writing d .unlinkMalformed, _ => trivial
  | .writing d .lookAgain, _ => trivial
  | .writing d .unlinkSpecial, _ => trivial
  | .writing d .link, _ => trivial
  | .writing d .create, _ => trivial
  | .sweeping path, _ => trivial

/-! ### Frames -/

section Frames

variable {dir dir' : PermissionDir} {p q i : ℕ} {place : Place} {key : String} {now : ℚ}

theorem Frame.of_open (hopener : ∀ k, dir.opener k = some q → dir'.opener k = some q)
    (hauthor : dir'.author = dir.author) (hfirst : dir'.firstReadable = dir.firstReadable)
    (hopen : ∀ k, place.open? = some k → dir.opener k = some q →
      dir'.readDecision k = dir.readDecision k ∧ dir'.request k = dir.request k)
    (hwritten : ∀ k file, dir'.decision k = some file → dir.decision k = some file) :
    Frame dir dir' q place where
  opener := hopener
  author inode h := by rw [hauthor]; exact h
  first k d h := by rw [hfirst]; exact h
  open_ k hk hq h := by
    obtain ⟨hread, hrequest⟩ := hopen k hk hq
    refine ⟨?_, fun hpublished => ?_⟩
    · rw [hread, hfirst]
      exact h
    · unfold Published
      rw [hrequest]
      exact hpublished
  written k inode content _ h := by
    obtain ⟨file, hfile, hcontent⟩ := Option.map_eq_some_iff.mp h
    rw [hwritten k file hfile, ← hcontent]
    rfl

theorem Frame.of_same (hdecision : dir'.decision = dir.decision)
    (hrequest : dir'.request = dir.request) (hfirst : dir'.firstReadable = dir.firstReadable)
    (hauthor : dir'.author = dir.author)
    (hopener : ∀ k, dir.opener k = some q → dir'.opener k = some q) :
    Frame dir dir' q place :=
  Frame.of_open hopener hauthor hfirst
    (fun k _ _ => ⟨readDecision_congr (congrFun hdecision k), congrFun hrequest k⟩)
    (fun k file h => by rw [hdecision] at h; exact h)

theorem Frame.refl : Frame dir dir q place := Frame.of_same rfl rfl rfl rfl fun _ h => h

theorem decision_of_remove {k : String} {file : Stamped Node}
    (h : (dir.remove path).decision k = some file) : dir.decision k = some file := by
  cases path with
  | request key => exact h
  | ack key => exact h
  | decision key =>
    rw [show dir.remove (.decision key) = dir.unlinkDecision key from rfl] at h
    unfold unlinkDecision at h
    split at h
    · exact h
    · by_cases hk : k = key
      · rw [hk, putDecision_self] at h
        cases h
      · rw [putDecision_of_ne none hk] at h
        exact h

theorem remove_read_of_ne {k : String} (hne : k ≠ path.key) :
    (dir.remove path).readDecision k = dir.readDecision k ∧
      (dir.remove path).request k = dir.request k := by
  cases path with
  | request key => exact ⟨readDecision_congr rfl, Function.update_of_ne hne ..⟩
  | ack key => exact ⟨readDecision_congr rfl, rfl⟩
  | decision key =>
    exact ⟨readDecision_congr (unlinkDecision_of_ne hne), congrFun unlinkDecision_request k⟩

theorem remove_eq (path : PermitPath) : ∃ request decision ack,
    dir.remove path = { dir with request := request, decision := decision, ack := ack } := by
  cases path with
  | request key => exact ⟨_, _, _, rfl⟩
  | ack key => exact ⟨_, _, _, rfl⟩
  | decision key =>
    show ∃ request decision ack, dir.unlinkDecision key = _
    unfold unlinkDecision
    split
    · exact ⟨dir.request, dir.decision, dir.ack, rfl⟩
    · exact ⟨_, _, _, rfl⟩

@[simp] theorem remove_opener (path : PermitPath) : (dir.remove path).opener = dir.opener := by
  obtain ⟨_, _, _, h⟩ := remove_eq path
  rw [h]

@[simp] theorem remove_author (path : PermitPath) : (dir.remove path).author = dir.author := by
  obtain ⟨_, _, _, h⟩ := remove_eq path
  rw [h]

@[simp] theorem remove_firstReadable (path : PermitPath) :
    (dir.remove path).firstReadable = dir.firstReadable := by
  obtain ⟨_, _, _, h⟩ := remove_eq path
  rw [h]

@[simp] theorem remove_nextInode (path : PermitPath) :
    (dir.remove path).nextInode = dir.nextInode := by
  obtain ⟨_, _, _, h⟩ := remove_eq path
  rw [h]

/-- **A removal** of what no open hold needs. -/
theorem Frame.remove
    (hopen : ∀ k, place.open? = some k → dir.opener k = some q → k = path.key →
      (dir.remove path).readDecision k = dir.readDecision k ∧
        (dir.remove path).request k = dir.request k) :
    Frame dir (dir.remove path) q place := by
  refine Frame.of_open (fun k h => by rw [remove_opener]; exact h) (remove_author path)
    (remove_firstReadable path) (fun k hk hq => ?_) (fun k file h => decision_of_remove h)
  by_cases hkey : k = path.key
  · exact hopen k hk hq hkey
  · exact remove_read_of_ne hkey

/-! ### New decisions -/

@[simp] theorem noted_decision : (dir.noted key).decision = dir.decision := by
  unfold noted
  split <;> rfl

@[simp] theorem noted_request : (dir.noted key).request = dir.request := by
  unfold noted
  split <;> rfl

@[simp] theorem noted_opener : (dir.noted key).opener = dir.opener := by
  unfold noted
  split <;> rfl

@[simp] theorem noted_author : (dir.noted key).author = dir.author := by
  unfold noted
  split <;> rfl

@[simp] theorem noted_nextInode : (dir.noted key).nextInode = dir.nextInode := by
  unfold noted
  split <;> rfl

theorem noted_firstReadable {k : String} {d : Decision} (h : dir.firstReadable k = some d) :
    (dir.noted key).firstReadable k = some d := by
  unfold noted
  split
  · rename_i first hnone hsome
    have hk : k ≠ key := fun heq => by
      rw [heq, hnone] at h
      cases h
    show Function.update dir.firstReadable key (some first) k = some d
    rw [Function.update_of_ne hk]
    exact h
  · exact h

theorem noted_firstReadable_of_ne {k : String} (hne : k ≠ key) :
    (dir.noted key).firstReadable k = dir.firstReadable k := by
  unfold noted
  split
  · rename_i first hnone hsome
    show Function.update dir.firstReadable key (some first) k = dir.firstReadable k
    rw [Function.update_of_ne hne]
  · rfl

/-- **What becomes readable is noted**, where nothing was. -/
theorem noted_first (h : dir.firstReadable key = none) :
    (dir.noted key).readDecision key = (dir.noted key).firstReadable key := by
  rw [readDecision_congr (congrFun noted_decision key)]
  unfold noted
  split
  · rename_i d hnone hsome
    show dir.readDecision key = Function.update dir.firstReadable key (some d) key
    rw [hsome, Function.update_self]
  · rename_i hno
    cases hread : dir.readDecision key with
    | none => exact h.symm
    | some d => exact absurd hread (hno d h)

theorem Frame.decision {dir'' : PermissionDir}
    (hopener : ∀ k, dir.opener k = some q → dir'.opener k = some q)
    (hauthor : ∀ inode, dir.author inode = some q → dir'.author inode = some q)
    (hothers : ∀ k, k ≠ key → dir'.decision k = dir.decision k)
    (hrequest : dir'.request = dir.request) (hfirst : dir'.firstReadable = dir.firstReadable)
    (hnone : dir.readDecision key = none)
    (hwritten : ∀ inode content, dir.author inode = some q →
      (dir'.decision key).map Stamped.content = some (.regular inode content) →
        (dir.decision key).map Stamped.content = some (.regular inode content))
    (hnoted : dir'' = dir'.noted key) : Frame dir dir'' q place where
  opener k h := by rw [hnoted, noted_opener]; exact hopener k h
  author inode h := by rw [hnoted, noted_author]; exact hauthor inode h
  first k d h := by
    rw [hnoted]
    exact noted_firstReadable (by rw [hfirst]; exact h)
  open_ k hk hq h := by
    rw [hnoted]
    refine ⟨?_, fun hpublished => ?_⟩
    · by_cases hkey : k = key
      · subst hkey
        exact noted_first (by rw [hfirst, ← h]; exact hnone)
      · rw [noted_firstReadable_of_ne hkey, hfirst, ← h]
        exact readDecision_congr (by rw [noted_decision]; exact hothers k hkey)
    · unfold Published
      rw [noted_request, hrequest]
      exact hpublished
  written k inode content hq h := by
    rw [hnoted, noted_decision] at h
    by_cases hkey : k = key
    · subst hkey
      exact hwritten inode content hq h
    · rw [hothers k hkey] at h
      exact h

theorem noted_of_none (h : dir.readDecision key = none) : dir.noted key = dir := by
  unfold noted
  split
  · rename_i d _ hsome
    rw [h] at hsome
    cases hsome
  · rfl

theorem Frame.noted : Frame dir (dir.noted key) q place where
  opener k h := by rw [noted_opener]; exact h
  author inode h := by rw [noted_author]; exact h
  first k d h := noted_firstReadable h
  open_ k _ _ h := by
    rw [readDecision_congr (congrFun noted_decision k)]
    refine ⟨?_, fun hpublished => ?_⟩
    · cases hfirst : dir.firstReadable k with
      | some d => rw [noted_firstReadable hfirst, h, hfirst]
      | none =>
        rw [hfirst] at h
        by_cases hkey : k = key
        · subst hkey
          rw [noted_of_none h, h, hfirst]
        · rw [noted_firstReadable_of_ne hkey, h, hfirst]
    · unfold Published
      rw [noted_request]
      exact hpublished
  written k inode content _ h := by
    rw [noted_decision] at h
    exact h

end Frames

/-! ### Turns -/

/-- A turn keeps what holds of the directory, of the caller and of the others. -/
structure Moves (dir : PermissionDir) (places : ℕ → Place) (p : ℕ) (next : PermissionDir × Place) :
    Prop where
  sound : SoundDir next.1
  own : At next.1 p next.2
  others : ∀ q, q ≠ p → Frame dir next.1 q (places q)

section Turns

variable {dir : PermissionDir} {places : ℕ → Place} {p : ℕ} {h : Hold} {acked : Bool} {a : Answer}
  {d : Decision}

theorem Moves.stay {place : Place} (hsound : SoundDir dir) (hat : At dir p place) :
    Moves dir places p (dir, place) :=
  ⟨hsound, hat, fun _ _ => Frame.refl⟩

theorem ne_of_opener {q : ℕ} {k key : String} (hne : q ≠ p) (hp : dir.opener key = some p)
    (hq : dir.opener k = some q) : k ≠ key := by
  intro heq
  rw [heq, hp] at hq
  exact hne (Option.some.inj hq).symm

section

variable (hsound : SoundDir dir)
include hsound

/-- **The end of a hold.** -/
theorem finish_moves (hopener : dir.opener h.key = some p) (hdecided : ByFirst dir h outcome) :
    Moves dir places p (finish dir h outcome) where
  sound := ⟨hsound.inodes, hsound.authors⟩
  own := ⟨hopener, List.suffix_rfl, hdecided⟩
  others _ _ := Frame.of_same rfl rfl rfl rfl fun _ hk => hk

theorem decided_moves (hopen : OpenHold dir p h) (hread : dir.readDecision h.key = some d) :
    Moves dir places p (finish dir h (.decided d)) :=
  finish_moves hsound hopen.opener fun d' hd => by
    cases hd
    refine ⟨?_, key_of_readDecision hread⟩
    rw [← hopen.first]
    exact hread

/-- **A turn of a hold.** -/
theorem holdTurn_moves {pc : HoldAt} (hat : At dir p (.holding h acked pc))
    (hsmall : pc = .writeRequest → a.ok → h.small) :
    Moves dir places p (holdTurn a dir h acked pc) := by
  match pc, hat with
  | .writeRequest, hopen =>
    unfold holdTurn
    dsimp only
    split
    · rename_i hok
      refine ⟨⟨hsound.inodes, hsound.authors⟩, ⟨⟨hopen.opener, hopen.first⟩, ?_⟩, ?_⟩
      · show Option.any Stamped.content
          (Function.update dir.request h.key (some ⟨h.small, a.now⟩) h.key) = true
        rw [Function.update_self]
        exact hsmall rfl hok
      · intro q hq
        refine Frame.of_open (fun _ hk => hk) rfl rfl (fun k _ hk => ⟨rfl, ?_⟩) fun _ _ hk => hk
        exact Function.update_of_ne (ne_of_opener hq hopen.opener hk) ..
    · exact finish_moves hsound hopen.opener nofun
  | .readDecision, hat =>
    unfold holdTurn
    dsimp only
    split
    · rename_i d hread
      exact decided_moves hsound hat.1 hread
    · exact Moves.stay hsound hat
  | .readAck, hat => exact Moves.stay hsound hat
  | .checkDeadline, hat =>
    refine Moves.stay hsound ?_
    cases a.ok
    · exact hat
    · exact hat
  | .readAgain, hat =>
    unfold holdTurn
    dsimp only
    split
    · rename_i d hread
      exact decided_moves hsound hat.1 hread
    · cases acked
      · exact finish_moves hsound hat.1.opener nofun
      · exact finish_moves hsound hat.1.opener nofun
  | .sleep, hat =>
    unfold holdTurn
    dsimp only
    split
    · exact finish_moves hsound hat.1.opener nofun
    · exact Moves.stay hsound hat

theorem SoundDir.remove (path : PermitPath) :
    SoundDir (dir.remove path) where
  inodes key inode content hcontent := by
    obtain ⟨file, hfile, hnode⟩ := Option.map_eq_some_iff.mp hcontent
    rw [remove_nextInode]
    refine hsound.inodes key inode content ?_
    rw [decision_of_remove hfile, ← hnode]
    rfl
  authors inode hinode := by
    rw [remove_nextInode] at hinode
    rw [remove_author]
    exact hsound.authors inode hinode

/-- **A turn of `clear`.** -/
theorem clear_moves {left : List PermitPath}
    (hat : At dir p (.clearing h outcome (path :: left))) :
    Moves dir places p (dir.remove path, .clearing h outcome left) where
  sound := hsound.remove path
  own := by
    refine ⟨?_, (List.suffix_cons path left).trans hat.2.1, ?_⟩
    · rw [remove_opener]
      exact hat.1
    · intro d hd
      rw [remove_firstReadable]
      exact hat.2.2 d hd
  others q hq := by
    refine Frame.remove fun k _ hk hkey => absurd hkey (ne_of_opener hq ?_ hk)
    have hfile := hat.2.1.subset List.mem_cons_self
    have hpath : path.key = h.key := by
      simp only [filesOf, List.mem_cons, List.not_mem_nil, or_false] at hfile
      rcases hfile with rfl | rfl | rfl <;> rfl
    rw [hpath]
    exact hat.1

/-! ### `write_decision` -/

theorem SoundDir.ne_next {q : ℕ} (h : dir.author inode = some q) :
    inode ≠ dir.nextInode := by
  intro heq
  rw [heq, hsound.authors dir.nextInode (Nat.le_refl _)] at h
  cases h

theorem SoundDir.noted (key : String) : SoundDir (dir.noted key) where
  inodes k inode content h := by
    rw [noted_decision] at h
    rw [noted_nextInode]
    exact hsound.inodes k inode content h
  authors inode h := by
    rw [noted_nextInode] at h
    rw [noted_author]
    exact hsound.authors inode h

theorem SoundDir.create (key : String) (content : Option Decision) (now : ℚ) :
    SoundDir (dir.createDecision p key content now) where
  inodes k inode content' h := by
    show inode < dir.nextInode + 1
    by_cases hk : k = key
    · have hself : (dir.createDecision p key content now).decision key =
        some ⟨.regular dir.nextInode content, now⟩ := putDecision_self _
      rw [hk, hself] at h
      cases h
      exact Nat.lt_succ_self _
    · have hother : (dir.createDecision p key content now).decision k = dir.decision k :=
        putDecision_of_ne _ hk
      rw [hother] at h
      exact Nat.lt_succ_of_lt (hsound.inodes k inode content' h)
  authors inode h := by
    have hlt : dir.nextInode + 1 ≤ inode := h
    show Function.update dir.author dir.nextInode (some p) inode = none
    rw [Function.update_of_ne (by omega)]
    exact hsound.authors inode (by omega)

/-- **A file is created where there is none.** -/
theorem Frame.create {q : ℕ} {place : Place} {key : String} {now : ℚ}
    (hnone : dir.decision key = none) :
    Frame dir ((dir.createDecision p key content now).noted key) q place := by
  refine Frame.decision (show ∀ k, dir.opener k = some q →
    (dir.createDecision p key content now).opener k = some q from fun _ hk => hk) ?_
    (fun k hk => putDecision_of_ne _ hk) rfl rfl (readDecision_of_none hnone) ?_ rfl
  · intro inode hq
    show Function.update dir.author dir.nextInode (some p) inode = some q
    rw [Function.update_of_ne (hsound.ne_next hq)]
    exact hq
  · intro inode content' hq hfile
    have hself : (dir.createDecision p key content now).decision key =
      some ⟨.regular dir.nextInode content, now⟩ := putDecision_self _
    rw [hself] at hfile
    cases hfile
    exact absurd rfl (hsound.ne_next hq)

end

theorem fillDecision_cases {key : String} {now : ℚ} :
    dir.fillDecision key inode content now = dir ∨
      ∃ before, (dir.decision key).map Stamped.content = some (.regular inode before) ∧
        dir.fillDecision key inode content now =
          dir.putDecision key (some ⟨.regular inode content, now⟩) := by
  unfold fillDecision
  split
  · rename_i i before hfile
    split
    · rename_i hi
      subst hi
      exact .inr ⟨before, hfile, rfl⟩
    · exact .inl rfl
  · exact .inl rfl

theorem readDecision_of_empty {key : String}
    (h : (dir.decision key).map Stamped.content = some (.regular inode none)) :
    dir.readDecision key = none := by
  unfold readDecision
  rw [h]

theorem fill_moves {now : ℚ} (hsound : SoundDir dir)
    (hat : At dir p (.writing d (.fill inode))) :
    Moves dir places p ((dir.fillDecision d.key inode content now).noted d.key, .idle) := by
  rcases fillDecision_cases with hsame | ⟨before, hfile, hput⟩
  · rw [hsame]
    exact ⟨hsound.noted d.key, trivial, fun _ _ => Frame.noted⟩
  · have hempty : before = none := hat.2 before hfile
    subst hempty
    refine ⟨SoundDir.noted ?_ d.key, trivial, fun q hq => ?_⟩
    · rw [hput]
      refine ⟨fun k i content' hk => ?_, hsound.authors⟩
      by_cases hkey : k = d.key
      · rw [hkey, putDecision_self] at hk
        cases hk
        exact hsound.inodes d.key _ none hfile
      · rw [putDecision_of_ne _ hkey] at hk
        exact hsound.inodes k i content' hk
    · rw [hput]
      refine Frame.decision (show ∀ k, dir.opener k = some q →
        (dir.putDecision d.key (some ⟨.regular inode content, now⟩)).opener k = some q from
          fun _ hk => hk) (fun _ hi => hi) (fun k hk => putDecision_of_ne _ hk) rfl rfl
        (readDecision_of_empty hfile) ?_ rfl
      intro i content' hq' hk
      rw [putDecision_self] at hk
      cases hk
      rw [hat.1] at hq'
      exact absurd (Option.some.inj hq').symm hq

/-- **A turn of `write_decision`**, of which a removal leaves what can be read. -/
theorem writeTurn_moves {pc : WriteAt} (hsound : SoundDir dir)
    (hat : At dir p (.writing d pc))
    (hunlink : pc = .unlinkMalformed ∨ pc = .unlinkSpecial → dir.readDecision d.key = none) :
    Moves dir places p (writeTurn a p dir d pc) := by
  have hremove : ∀ pc', (pc = .unlinkMalformed ∨ pc = .unlinkSpecial) →
      (∀ dir', At dir' p (.writing d pc')) →
      Moves dir places p (dir.unlinkDecision d.key, .writing d pc') := by
    intro pc' hpc hat'
    refine ⟨hsound.remove (.decision d.key), hat' _, fun q _ => ?_⟩
    show Frame dir (dir.remove (.decision d.key)) q (places q)
    refine .remove fun k _ _ hk => ?_
    rw [show k = d.key from hk]
    refine ⟨?_, congrFun unlinkDecision_request d.key⟩
    rw [hunlink hpc]
    exact readDecision_unlink_self (hunlink hpc)
  match pc, hat with
  | .look, _ =>
    unfold writeTurn
    dsimp only
    split
    · exact Moves.stay hsound trivial
    · exact Moves.stay hsound trivial
  | .readDecision, _ =>
    unfold writeTurn
    dsimp only
    split
    · exact Moves.stay hsound trivial
    · exact Moves.stay hsound trivial
  | .unlinkMalformed, _ => exact hremove .lookAgain (.inl rfl) fun _ => trivial
  | .lookAgain, _ =>
    unfold writeTurn
    dsimp only
    split
    · exact Moves.stay hsound trivial
    · exact Moves.stay hsound trivial
  | .unlinkSpecial, _ => exact hremove .link (.inr rfl) fun _ => trivial
  | .link, _ =>
    unfold writeTurn
    dsimp only
    split
    · exact Moves.stay hsound trivial
    · split
      · exact Moves.stay hsound trivial
      · rename_i hnone
        exact ⟨(hsound.create d.key (some d) a.now).noted d.key, trivial, fun q _ =>
          Frame.create hsound (Option.not_isSome_iff_eq_none.mp hnone)⟩
  | .create, _ =>
    unfold writeTurn
    dsimp only
    split
    · exact Moves.stay hsound trivial
    · rename_i hsome
      have hnone := Option.not_isSome_iff_eq_none.mp hsome
      have hself : (dir.createDecision p d.key none a.now).decision d.key =
        some ⟨.regular dir.nextInode none, a.now⟩ := putDecision_self _
      have hempty : (dir.createDecision p d.key none a.now).noted d.key =
          dir.createDecision p d.key none a.now := by
        have hstamped := congrArg (Option.map Stamped.content) hself
        exact noted_of_none (readDecision_of_empty hstamped)
      refine ⟨hsound.create d.key none a.now, ⟨Function.update_self .., ?_⟩, fun q _ => ?_⟩
      · intro content hcontent
        rw [hself] at hcontent
        cases hcontent
        rfl
      · rw [← hempty]
        exact Frame.create hsound hnone
  | .fill inode, hat => exact fill_moves hsound hat

end Turns

end GoalFlight.Acp
