import GoalFlight.Dispatch.Identity
import GoalFlight.Library.Machine
import Mathlib.Data.List.Count
import Mathlib.Data.List.Sort
import Mathlib.Data.Prod.Lex
import Mathlib.Data.String.Basic

/-!
# Dispatch: the turns of queued entries

A drain pass sorts the queue by the time of the last attempt, takes the first `--limit` entries and
goes through them until its budget is spent.  An attempt that leaves its entry in the queue stamps
it, so the entry goes behind the others; an entry that is passed over keeps its place.

Entries that cannot be attempted and stay in front can fill the limit in every pass
(`drain_starves`).  `every_entry_gets_turn`: as long as each pass attempts something, an entry that
can be launched has its turn within as many passes as there are entries.
-/

namespace GoalFlight.Dispatch

/-! ### One pass -/

/-- A queued entry, with what `_queue_entry_drain_candidate` sorts the entries of one priority
by. -/
structure Candidate where
  name : String
  /-- `_drain_project_key`. -/
  project : String
  /-- `_queue_entry_last_attempted_ts`: zero where the entry cannot be read. -/
  lastAttempted : Seconds
  created : Seconds
deriving DecidableEq

def Candidate.sortKey (c : Candidate) : Seconds ×ₗ Seconds ×ₗ String :=
  toLex (c.lastAttempted, toLex (c.created, c.name))

/-- Why an entry is passed over. -/
inductive Refusal
  | unreadableQueueEntry
  | settlement
  | launchBackoff
  | unsupportedReasoningEffort
  /-- The journal is busy or in error when the launch token is asked for. -/
  | journal
  | claim
  | completionAuthority
  /-- The journal is busy or in error when the launch command is built. -/
  | argvJournal
  | missingDispatchArgv
deriving DecidableEq

/-- It is found before the projects of the pass are looked at. -/
def Refusal.beforeProjects (r : Refusal) : Bool :=
  r = .unreadableQueueEntry ∨ r = .settlement

/-- The project is passed over for the rest of the pass. -/
def Refusal.remembersProject (r : Refusal) : Bool := r = .journal ∨ r = .argvJournal

/-- What becomes of an entry whose turn it is; times it takes are in milliseconds. -/
inductive Visit
  | refused (r : Refusal) (cost : ℕ) (leaves : Bool)
  /-- It is attempted, and leaves the queue or is back with the stamp of the attempt. -/
  | launched (duration : ℕ) (stamp : Option Seconds)

def Visit.isLaunched : Visit → Bool
  | .launched .. => true
  | .refused .. => false

def Visit.stamp : Visit → Option Seconds
  | .launched _ stamp => stamp
  | .refused .. => none

/-- What one pass finds. -/
structure DrainPass where
  limit : ℕ
  /-- `_drain_launch_pass_budget_s`. -/
  budget : ℕ
  /-- Held by `not_before`, or retained for another controller. -/
  gated : String → Bool
  visits : String → Visit

structure PassState where
  elapsed : ℕ
  skippedProjects : List String
  queue : List Candidate
  attempted : List String

/-- The queue after an entry has left it, or is back with a stamp. -/
def settleQueue (q : List Candidate) (name : String) (stamp : Option Seconds) : List Candidate :=
  q.filterMap fun c =>
    if c.name = name then stamp.map fun t => { c with lastAttempted := t } else some c

/-- One turn of the loop of `_drain_queue_once`. -/
def DrainPass.visit (w : DrainPass) (s : PassState) (c : Candidate) : PassState :=
  match w.visits c.name with
  | .refused r cost leaves =>
    if ¬ r.beforeProjects ∧ (c.project ∈ s.skippedProjects ∨
        r ≠ .launchBackoff ∧ w.budget ≤ s.elapsed) then s
    else { s with
      elapsed := s.elapsed + cost
      skippedProjects := if r.remembersProject ∧ c.project ≠ "" then
        c.project :: s.skippedProjects else s.skippedProjects
      queue := if leaves then settleQueue s.queue c.name none else s.queue }
  | .launched duration stamp =>
    if c.project ∈ s.skippedProjects ∨ w.budget ≤ s.elapsed then s
    else { s with
      elapsed := s.elapsed + duration
      queue := settleQueue s.queue c.name stamp
      attempted := c.name :: s.attempted }

/-- The entries that are not held, in order. -/
def DrainPass.sorted (w : DrainPass) (q : List Candidate) : List Candidate :=
  (q.filter fun c => !w.gated c.name).insertionSort fun a b => a.sortKey ≤ b.sortKey

/-- The entries the pass goes through. -/
def DrainPass.entries (w : DrainPass) (q : List Candidate) : List Candidate :=
  if w.limit = 0 then w.sorted q else (w.sorted q).take w.limit

/-- The queue, and the entries that have had a turn. -/
structure DrainState where
  queue : List Candidate
  attempted : List String
deriving DecidableEq

/-- One pass of `_drain_queue_once`. -/
def DrainState.pass (s : DrainState) (w : DrainPass) : DrainState :=
  let p := (w.entries s.queue).foldl w.visit ⟨0, [], s.queue, []⟩
  ⟨p.queue, p.attempted ++ s.attempted⟩

/-! ### The condition -/

/-- The entry can be launched: it is not held, and nothing passes over it. -/
def DrainPass.Launches (w : DrainPass) (name : String) : Prop :=
  w.gated name = false ∧ (w.visits name).isLaunched = true

/-- The first entry that can be attempted is reached before the budget is spent on the ones in
front of it, and none of those has its project passed over. -/
def DrainPass.reaches (w : DrainPass) : List Candidate → ℕ → List String → Bool
  | [], _, _ => false
  | c :: rest, elapsed, projects =>
    match w.visits c.name with
    | .launched .. => c.project ∉ projects ∧ elapsed < w.budget
    | .refused r cost _ => w.reaches rest (elapsed + cost)
        (if r.remembersProject ∧ c.project ≠ "" then c.project :: projects else projects)

/-- **The pass gives a turn**: it reaches an entry it can attempt, and the stamps it writes are
later than all there are. -/
def DrainPass.GivesTurn (w : DrainPass) (q : List Candidate) : Prop :=
  w.reaches (w.entries q) 0 [] = true ∧
    ∀ c ∈ q, ((w.visits c.name).stamp.all fun t => q.all fun c' => c'.lastAttempted < t) = true

instance (w : DrainPass) (q : List Candidate) : Decidable (w.GivesTurn q) := by
  unfold DrainPass.GivesTurn
  infer_instance

/-! ### The place of an entry -/

/-- How many entries of the queue are in front. -/
def place (e : Candidate) (q : List Candidate) : ℕ := q.countP fun c => c.sortKey < e.sortKey

variable {w : DrainPass} {s : PassState} {q : List Candidate} {e c : Candidate} {name : String}
  {stamp : Option Seconds}

theorem countP_lt_countP_of_mem {α : Type} {p p' : α → Bool} {l : List α}
    (hmono : ∀ x ∈ l, p x = true → p' x = true) {a : α} (ha : a ∈ l) (hp' : p' a = true)
    (hp : p a = false) : l.countP p < l.countP p' := by
  obtain ⟨front, back, rfl⟩ := List.append_of_mem ha
  have hfront := List.countP_mono_left fun x hx => hmono x (List.mem_append_left _ hx)
  have hback := List.countP_mono_left fun x hx =>
    hmono x (List.mem_append_right _ (List.mem_cons_of_mem a hx))
  simp only [List.countP_append, List.countP_cons, hp, hp', if_true, Bool.false_eq_true, if_false]
  omega

theorem not_lt_of_stamp {t : Seconds} (ht : e.lastAttempted < t) :
    ¬ { c with lastAttempted := t }.sortKey < e.sortKey := by
  apply lt_asymm
  exact Prod.Lex.toLex_lt_toLex.mpr (.inl ht)

theorem mem_settleQueue (hc : c ∈ q) (hne : c.name ≠ name) : c ∈ settleQueue q name stamp :=
  List.mem_filterMap.mpr ⟨c, hc, if_neg hne⟩

theorem place_settleQueue (e : Candidate) (q : List Candidate) (name : String)
    (stamp : Option Seconds) : place e (settleQueue q name stamp) = q.countP fun c =>
      if c.name = name then
        (stamp.map fun t => decide ({ c with lastAttempted := t }.sortKey < e.sortKey)).getD false
      else c.sortKey < e.sortKey := by
  unfold place settleQueue
  rw [List.countP_filterMap]
  congr 1
  funext c
  split
  · rw [Option.map_map]
    rfl
  · rfl

section

variable (hstamp : ∀ t ∈ stamp, e.lastAttempted < t)
include hstamp

theorem settled_in_front
    (h : (if c.name = name then
        (stamp.map fun t => decide ({ c with lastAttempted := t }.sortKey < e.sortKey)).getD false
      else decide (c.sortKey < e.sortKey)) = true) :
    c.name ≠ name ∧ c.sortKey < e.sortKey := by
  split at h
  · cases stamp with
    | none => cases h
    | some t => exact absurd (of_decide_eq_true h) (not_lt_of_stamp (hstamp t rfl))
  · exact ⟨‹_›, of_decide_eq_true h⟩

theorem place_settleQueue_le :
    place e (settleQueue q name stamp) ≤ place e q := by
  rw [place_settleQueue]
  apply List.countP_mono_left
  intro c _ hc
  exact decide_eq_true (settled_in_front hstamp hc).2

theorem place_settleQueue_lt (hc : c ∈ q) (hname : c.name = name)
    (hfront : c.sortKey < e.sortKey) :
    place e (settleQueue q name stamp) < place e q := by
  rw [place_settleQueue]
  refine countP_lt_countP_of_mem (fun x _ hx => decide_eq_true (settled_in_front hstamp hx).2) hc
    (decide_eq_true hfront) ?_
  by_contra hcounted
  exact (settled_in_front hstamp (Bool.of_not_eq_false hcounted)).1 hname

end

/-! ### Turns -/

/-- The entry has had its turn, or is where it was and behind no more entries. -/
def Waits (e : Candidate) (s s' : PassState) : Prop :=
  e.name ∈ s'.attempted ∨ e ∈ s'.queue ∧ place e s'.queue ≤ place e s.queue

/-- The stamps of the pass are later than the entry's. -/
def DrainPass.StampsBehind (w : DrainPass) (e : Candidate) (l : List Candidate) : Prop :=
  ∀ c ∈ l, ∀ t ∈ (w.visits c.name).stamp, e.lastAttempted < t

theorem attempted_visit (h : name ∈ s.attempted) : name ∈ (w.visit s c).attempted := by
  unfold DrainPass.visit
  split <;> split
  · exact h
  · exact h
  · exact h
  · exact List.mem_cons_of_mem _ h

theorem attempted_foldl (l : List Candidate) (h : name ∈ s.attempted) :
    name ∈ (l.foldl w.visit s).attempted := by
  induction l generalizing s with
  | nil => exact h
  | cons c rest ih => exact ih (attempted_visit h)

/-- **Step.**  Whatever entry is visited, one that can be launched has had its turn or still
waits. -/
theorem waits_visit (he : (w.visits e.name).isLaunched = true) (hmem : e ∈ s.queue)
    (hstamp : ∀ t ∈ (w.visits c.name).stamp, e.lastAttempted < t) :
    Waits e s (w.visit s c) := by
  have hstays : Waits e s s := .inr ⟨hmem, le_rfl⟩
  unfold DrainPass.visit
  cases hvisit : w.visits c.name with
  | refused r cost leaves =>
    have hne : e.name ≠ c.name := by
      intro heq
      rw [heq, hvisit] at he
      cases he
    dsimp only
    split
    · exact hstays
    · cases leaves with
      | false => exact .inr ⟨hmem, le_rfl⟩
      | true =>
        exact .inr ⟨mem_settleQueue hmem hne, place_settleQueue_le fun t ht => nomatch ht⟩
  | launched duration stamp =>
    dsimp only
    split
    · exact hstays
    · by_cases heq : e.name = c.name
      · exact .inl (heq ▸ List.mem_cons_self)
      · rw [hvisit] at hstamp
        exact .inr ⟨mem_settleQueue hmem heq, place_settleQueue_le hstamp⟩

theorem waits_foldl (he : (w.visits e.name).isLaunched = true) (l : List Candidate)
    (hstamps : w.StampsBehind e l) (hmem : e ∈ s.queue) : Waits e s (l.foldl w.visit s) := by
  induction l generalizing s with
  | nil => exact .inr ⟨hmem, le_rfl⟩
  | cons c rest ih =>
    obtain hturn | ⟨hmem', hplace⟩ := waits_visit he hmem (hstamps c List.mem_cons_self)
    · exact .inl (attempted_foldl rest hturn)
    · obtain hturn | ⟨hmem'', hplace'⟩ :=
        ih (fun d hd => hstamps d (List.mem_cons_of_mem c hd)) hmem'
      · exact .inl hturn
      · exact .inr ⟨hmem'', hplace'.trans hplace⟩

theorem mem_visit (hmem : e ∈ s.queue) (hne : e.name ≠ c.name) : e ∈ (w.visit s c).queue := by
  unfold DrainPass.visit
  split <;> split
  · exact hmem
  · dsimp only
    split
    · exact mem_settleQueue hmem hne
    · exact hmem
  · exact hmem
  · exact mem_settleQueue hmem hne

/-- **The entries of a pass.**  Among entries in order, the first that can be attempted is the
waiting one or one in front of it, which then goes behind. -/
theorem turn_foldl (he : (w.visits e.name).isLaunched = true) (l : List Candidate)
    {cut : List Candidate}
    (hsorted : (l ++ cut).Pairwise fun a b => a.sortKey ≤ b.sortKey) (hin : e ∈ l ++ cut)
    (hstamps : w.StampsBehind e l) {elapsed : ℕ} {projects : List String}
    (hreach : w.reaches l elapsed projects = true) (hmem : e ∈ s.queue)
    (hqueue : ∀ c ∈ l, (w.visits c.name).isLaunched = true → c ∈ s.queue)
    (helapsed : s.elapsed ≤ elapsed) (hprojects : s.skippedProjects ⊆ projects) :
    e.name ∈ (l.foldl w.visit s).attempted ∨ e ∈ (l.foldl w.visit s).queue ∧
      place e (l.foldl w.visit s).queue < place e s.queue := by
  induction l generalizing s elapsed projects with
  | nil => cases hreach
  | cons c rest ih =>
    have hrest : w.StampsBehind e rest := fun d hd => hstamps d (List.mem_cons_of_mem c hd)
    have hstamp := hstamps c List.mem_cons_self
    rw [List.cons_append, List.pairwise_cons] at hsorted
    unfold DrainPass.reaches at hreach
    cases hvisit : w.visits c.name with
    | launched duration stamp =>
      rw [hvisit] at hreach hstamp
      obtain ⟨hproject, htime⟩ := of_decide_eq_true hreach
      have hturn : w.visit s c = { s with
          elapsed := s.elapsed + duration
          queue := settleQueue s.queue c.name stamp
          attempted := c.name :: s.attempted } := by
        unfold DrainPass.visit
        rw [hvisit]
        exact if_neg (not_or.mpr ⟨fun h => hproject (hprojects h),
          not_le.mpr (helapsed.trans_lt htime)⟩)
      rw [List.foldl_cons]
      by_cases heq : e.name = c.name
      · exact .inl (attempted_foldl rest (by rw [hturn, heq]; exact List.mem_cons_self))
      · have hfront : c.sortKey < e.sortKey := by
          refine lt_of_le_of_ne ?_ fun hkey => heq ?_
          · rcases List.mem_cons.mp hin with rfl | hlater
            · exact absurd rfl heq
            · exact hsorted.1 e hlater
          · exact (congrArg (fun k => (ofLex (ofLex k).2).2) hkey).symm
        have hlt : place e (w.visit s c).queue < place e s.queue := by
          rw [hturn]
          exact place_settleQueue_lt hstamp
            (hqueue c List.mem_cons_self (by rw [hvisit]; rfl)) rfl hfront
        have hthere : e ∈ (w.visit s c).queue := mem_visit hmem heq
        exact (waits_foldl he rest hrest hthere).imp_right fun h => ⟨h.1, h.2.trans_lt hlt⟩
    | refused r cost leaves =>
      rw [hvisit] at hreach
      have hother : ∀ d : Candidate, (w.visits d.name).isLaunched = true →
          d.name ≠ c.name := by
        intro d hd heq
        rw [heq, hvisit] at hd
        cases hd
      have hlater : e ∈ rest ++ cut := by
        rcases List.mem_cons.mp hin with rfl | hlater
        · exact absurd rfl (hother e he)
        · exact hlater
      have hnext : (w.visit s c).elapsed ≤ elapsed + cost ∧
          (w.visit s c).skippedProjects ⊆ if r.remembersProject ∧ c.project ≠ "" then
            c.project :: projects else projects := by
        have hold : projects ⊆ if r.remembersProject ∧ c.project ≠ "" then
            c.project :: projects else projects := by
          split
          · exact List.subset_cons_self _ _
          · exact List.Subset.refl _
        unfold DrainPass.visit
        rw [hvisit]
        dsimp only
        split
        · exact ⟨helapsed.trans (Nat.le_add_right _ _), List.Subset.trans hprojects hold⟩
        · refine ⟨Nat.add_le_add_right helapsed cost, ?_⟩
          dsimp only
          split
          · exact List.cons_subset_cons _ hprojects
          · exact hprojects
      obtain hturn | ⟨hthere, hplace⟩ := waits_visit he hmem hstamp
      · exact .inl (attempted_foldl rest hturn)
      · refine (ih hsorted.2 hlater hrest hreach hthere (fun d hd hlaunch => ?_) hnext.1
          hnext.2).imp_right fun h => ⟨h.1, h.2.trans_le hplace⟩
        exact mem_visit (hqueue d (List.mem_cons_of_mem c hd) hlaunch) (hother d hlaunch)

/-! ### Passes -/

theorem DrainPass.GivesTurn.stampsBehind (h : w.GivesTurn q) (he : e ∈ q) :
    w.StampsBehind e q := by
  intro c hc t ht
  have hall := h.2 c hc
  rw [Option.mem_def.mp ht, Option.all_some] at hall
  exact of_decide_eq_true (List.all_eq_true.mp hall e he)

theorem mem_sorted : c ∈ w.sorted q ↔ c ∈ q ∧ w.gated c.name = false := by
  rw [DrainPass.sorted, List.mem_insertionSort, List.mem_filter, Bool.not_eq_true']

theorem exists_cut (w : DrainPass) (q : List Candidate) :
    ∃ cut, w.sorted q = w.entries q ++ cut := by
  unfold DrainPass.entries
  split
  · exact ⟨[], (List.append_nil _).symm⟩
  · exact ⟨_, (List.take_append_drop _ _).symm⟩

/-- **Pass.**  In a pass that gives a turn, an entry that can be launched has its own, or is
behind fewer entries afterwards. -/
theorem turn_pass {d : DrainState} (hturn : w.GivesTurn d.queue) (he : e ∈ d.queue)
    (hlaunch : w.Launches e.name) : e.name ∈ (d.pass w).attempted ∨
      e ∈ (d.pass w).queue ∧ place e (d.pass w).queue < place e d.queue := by
  obtain ⟨cut, hcut⟩ := exists_cut w d.queue
  have hsorted : (w.entries d.queue ++ cut).Pairwise fun a b => a.sortKey ≤ b.sortKey := by
    rw [← hcut]
    exact List.pairwise_insertionSort _ _
  have hin : e ∈ w.entries d.queue ++ cut := hcut ▸ mem_sorted.mpr ⟨he, hlaunch.1⟩
  have hqueue : ∀ c ∈ w.entries d.queue, c ∈ d.queue := fun c hc =>
    (mem_sorted.mp (hcut ▸ List.mem_append_left cut hc)).1
  exact (turn_foldl (s := ⟨0, [], d.queue, []⟩) hlaunch.2 (w.entries d.queue) hsorted hin
    (fun c hc => hturn.stampsBehind he c (hqueue c hc)) hturn.1 he (fun c hc _ => hqueue c hc)
    le_rfl (List.Subset.refl _)).imp_left (List.mem_append_left _)

theorem attempted_run (ws : List DrainPass) {d : DrainState} (h : name ∈ d.attempted) :
    name ∈ (Machine.run DrainState.pass d ws).attempted :=
  @Machine.run_invariant _ _ DrainState.pass (fun d => name ∈ d.attempted)
    (fun _ _ h => List.mem_append_right _ h) d h ws

theorem turn_run (ws : List DrainPass) {d : DrainState} (he : e ∈ d.queue)
    (hplace : place e d.queue < ws.length)
    (hturns : Machine.Meets DrainState.pass (fun d w => w.GivesTurn d.queue) d ws)
    (hlaunch : ∀ w ∈ ws, w.Launches e.name) :
    e.name ∈ (Machine.run DrainState.pass d ws).attempted := by
  induction ws generalizing d with
  | nil => exact absurd hplace (Nat.not_lt_zero _)
  | cons w rest ih =>
    obtain ⟨hturn, hrest⟩ := hturns
    obtain hdone | ⟨hmem, hless⟩ := turn_pass hturn he (hlaunch w List.mem_cons_self)
    · exact attempted_run rest hdone
    · have hshort : place e (d.pass w).queue < rest.length := by
        rw [List.length_cons] at hplace
        omega
      exact ih hmem hshort hrest fun w' hw' => hlaunch w' (List.mem_cons_of_mem w hw')

/-- **Every queued entry gets its turn.**  When every pass gives a turn, an entry that can be
launched in all of them is attempted within as many passes as the queue has entries. -/
theorem every_entry_gets_turn (q : List Candidate) (ws : List DrainPass)
    (hpasses : q.length ≤ ws.length)
    (hturns : Machine.Meets DrainState.pass (fun d w => w.GivesTurn d.queue) ⟨q, []⟩ ws)
    (he : e ∈ q) (hlaunch : ∀ w ∈ ws, w.Launches e.name) :
    e.name ∈ (Machine.run DrainState.pass ⟨q, []⟩ ws).attempted := by
  refine turn_run ws he (lt_of_lt_of_le ?_ hpasses) hturns hlaunch
  exact List.countP_lt_length_iff.mpr ⟨e, he, decide_eq_false (lt_irrefl _)⟩

/-- Two entries that were never attempted. -/
def twoCandidates : List Candidate := [⟨"a", "p", 0, 1⟩, ⟨"b", "r", 0, 2⟩]

/-- A pass with `--limit 1` that launches everything but what `visits` says of `a`. -/
def passOfOne (visits : Visit) (stamp : Seconds) : DrainPass where
  limit := 1
  budget := 600
  gated _ := false
  visits name := if name = "a" then visits else .launched 5 (some stamp)

/-- Where `a` is launched, and is back with a stamp, `b` has its turn in the second pass. -/
theorem every_entry_gets_turn_two :
    "b" ∈ (Machine.run DrainState.pass ⟨twoCandidates, []⟩
      [passOfOne (.launched 5 (some 10)) 10, passOfOne (.launched 5 (some 20)) 20]).attempted :=
  every_entry_gets_turn (e := ⟨"b", "r", 0, 2⟩) twoCandidates _ (by decide) (by decide +kernel)
    (by decide) (by simp [DrainPass.Launches, passOfOne, Visit.isLaunched])

/-- **An entry that cannot be attempted keeps the others waiting.**  With the journal of its
project busy `a` is the one entry of every pass, and `b` is never attempted. -/
theorem drain_starves :
    (¬ ∀ (q : List Candidate) (ws : List DrainPass), q.length ≤ ws.length → ∀ e ∈ q,
      (∀ w ∈ ws, w.Launches e.name) →
        e.name ∈ (Machine.run DrainState.pass ⟨q, []⟩ ws).attempted) ∧
    ∀ n, Machine.run DrainState.pass ⟨twoCandidates, []⟩
      (List.replicate n (passOfOne (.refused .journal 5 false) 10)) = ⟨twoCandidates, []⟩ := by
  have hsame : DrainState.pass ⟨twoCandidates, []⟩ (passOfOne (.refused .journal 5 false) 10) =
      ⟨twoCandidates, []⟩ := by
    decide +kernel
  have hstuck : ∀ n, Machine.run DrainState.pass ⟨twoCandidates, []⟩
      (List.replicate n (passOfOne (.refused .journal 5 false) 10)) = ⟨twoCandidates, []⟩ := by
    intro n
    induction n with
    | zero => rfl
    | succ n ih => rw [List.replicate_succ, Machine.run_cons, hsame, ih]
  refine ⟨fun hall => ?_, hstuck⟩
  have hturn := hall twoCandidates (List.replicate 2 (passOfOne (.refused .journal 5 false) 10))
    (by decide) ⟨"b", "r", 0, 2⟩ (by decide)
    (by simp [DrainPass.Launches, passOfOne, Visit.isLaunched])
  rw [hstuck] at hturn
  cases hturn

end GoalFlight.Dispatch
