import GoalFlight.Tasks.Imported
import Mathlib.Data.List.Chain
import Mathlib.Logic.Relation

/-!
# Cycles among the drafts of an import

`find_cycle` searches in depth.  A draft is marked as visited when its blockers are, so every
visited draft is accessible in the relation of waiting until a cycle is found, and one is found
exactly where there is one (`cycleErrors_iff`).
-/

namespace GoalFlight.Tasks

open Relation

variable {edges : List (String × List String)} {found next : CycleSearch} {drafts : List String}

/-- A draft waits for a blocker. -/
def Waits (edges : List (String × List String)) (draftId blocker : String) : Prop :=
  blocker ∈ (Dictionary.get? edges draftId).getD []

/-- A path of waiting drafts that ends where it starts, and meets no other draft twice. -/
def ClosedPath (edges : List (String × List String)) (cycle : List String) : Prop :=
  ∃ draftId path, cycle = draftId :: path ++ [draftId] ∧ (draftId :: path).Nodup ∧
    cycle.IsChain (Waits edges)

/-- **The invariant of the search**: a visited draft waits for no cycle, and what is reported is
one. -/
structure CycleSearch.Sound (edges : List (String × List String)) (found : CycleSearch) : Prop where
  acyclic : found.cycle = none → ∀ draftId ∈ found.visited, Acc (flip (Waits edges)) draftId
  closed : ∀ cycle ∈ found.cycle, ClosedPath edges cycle

/-- What visiting these drafts comes to. -/
structure Visits (edges : List (String × List String)) (found next : CycleSearch)
    (drafts : List String) : Prop where
  sound : next.Sound edges
  visited : next.cycle = none →
    found.cycle = none ∧ found.visited ⊆ next.visited ∧ drafts ⊆ next.visited

theorem visits_foldlM {visit : CycleSearch → String → Option CycleSearch}
    (hvisit : ∀ draftId ∈ drafts, ∀ {found next}, found.Sound edges →
      visit found draftId = some next → Visits edges found next [draftId])
    (hsound : found.Sound edges) (h : drafts.foldlM visit found = some next) :
    Visits edges found next drafts := by
  induction drafts generalizing found with
  | nil =>
    cases h
    exact ⟨hsound, fun hnone => ⟨hnone, List.Subset.refl _, List.nil_subset _⟩⟩
  | cons draftId rest ih =>
    rw [List.foldlM_cons] at h
    obtain ⟨middle, hfirst, hrest⟩ := Option.bind_eq_some_iff.mp h
    have hone := hvisit draftId List.mem_cons_self hsound hfirst
    have hmore := ih (fun d hd => hvisit d (List.mem_cons_of_mem _ hd)) hone.sound hrest
    refine ⟨hmore.sound, fun hnone => ?_⟩
    obtain ⟨hmiddle, hkeeps, hsub⟩ := hmore.visited hnone
    obtain ⟨hfound, hkept, hdraft⟩ := hone.visited hmiddle
    exact ⟨hfound, fun d hd => hkeeps (hkept hd),
      List.cons_subset.mpr ⟨hkeeps (hdraft List.mem_cons_self), hsub⟩⟩

/-- The part of the path from the draft on is closed by it. -/
theorem closedPath_of_mem {path : List String} {draftId : String} (hmem : draftId ∈ path)
    (hnodup : path.Nodup) (hchain : (path ++ [draftId]).IsChain (Waits edges)) :
    ClosedPath edges (path.dropWhile (· ≠ draftId) ++ [draftId]) := by
  obtain ⟨before, rest, rfl⟩ := List.append_of_mem hmem
  obtain ⟨-, hsuffix, hdisjoint⟩ := List.nodup_append'.mp hnodup
  have hbefore : ∀ d ∈ before, decide (d ≠ draftId) = true := fun d hd => decide_eq_true fun heq =>
    hdisjoint (heq ▸ hd) List.mem_cons_self
  rw [List.dropWhile_append_of_pos hbefore, List.dropWhile_cons_of_neg (by simp)]
  rw [List.append_assoc] at hchain
  exact ⟨draftId, rest, rfl, hsuffix, hchain.right_of_append⟩

theorem visits_findCycle {fuel : ℕ} {path : List String} {draftId : String} (hnodup : path.Nodup)
    (hchain : (path ++ [draftId]).IsChain (Waits edges)) (hsound : found.Sound edges)
    (h : findCycle edges fuel path draftId found = some next) :
    Visits edges found next [draftId] := by
  induction fuel generalizing path draftId found next with
  | zero => cases h
  | succ fuel ih =>
    unfold findCycle at h
    split at h
    · rename_i hdone
      cases h
      refine ⟨hsound, fun hnone => ⟨hnone, List.Subset.refl _, ?_⟩⟩
      rw [hnone] at hdone
      exact List.cons_subset.mpr ⟨hdone.resolve_left Bool.false_ne_true, List.nil_subset _⟩
    split at h
    · rename_i hmem
      cases h
      refine ⟨⟨fun hnone => absurd hnone (Option.some_ne_none _), fun cycle hcycle => ?_⟩,
        fun hnone => absurd hnone (Option.some_ne_none _)⟩
      cases hcycle
      exact closedPath_of_mem hmem hnodup hchain
    rename_i hnew
    obtain ⟨last, hloop, hnext⟩ := Option.bind_eq_some_iff.mp h
    cases hnext
    have hpath : (path ++ [draftId]).Nodup := List.concat_eq_append ▸ hnodup.concat hnew
    -- a blocker is looked at with this draft at the end of the path
    have hvisits : Visits edges found last ((Dictionary.get? edges draftId).getD []) := by
      refine visits_foldlM (fun blocker hblocker _ _ hs hvisit => ih hpath ?_ hs hvisit) hsound hloop
      refine hchain.append (List.isChain_singleton _) fun a ha b hb => ?_
      rw [List.getLast?_append, List.getLast?_singleton] at ha
      cases ha
      cases hb
      exact hblocker
    refine ⟨⟨fun hnone d hd => ?_, hvisits.sound.closed⟩, fun hnone => ?_⟩
    · have hacc := hvisits.sound.acyclic hnone
      rcases List.mem_cons.mp hd with rfl | hd
      · exact ⟨_, fun blocker hblocker => hacc _ ((hvisits.visited hnone).2.2 hblocker)⟩
      · exact hacc d hd
    · obtain ⟨hfound, hkept, -⟩ := hvisits.visited hnone
      exact ⟨hfound, fun d hd => List.mem_cons_of_mem _ (hkept hd),
        List.cons_subset.mpr ⟨List.mem_cons_self, List.nil_subset _⟩⟩

theorem not_rel_self_of_acc {α : Type} {r : α → α → Prop} {a : α} (h : Acc r a) : ¬ r a a := by
  induction h with
  | intro a _ ih => exact fun haa => ih a haa haa

/-- **An import is refused for a cycle exactly if there is one**, and the cycle it names is one. -/
theorem cycleErrors_iff (records : List SidecarRecord) :
    (cycleErrors records = [] ↔ ∀ draftId,
      ¬ TransGen (Waits (draftEdges records)) draftId draftId) ∧
    ∀ text ∈ cycleErrors records, ∃ cycle, ClosedPath (draftEdges records) cycle ∧
      text = "dependency cycle among draft ids: " ++ " -> ".intercalate cycle := by
  obtain ⟨found, hfound⟩ := Option.isSome_iff_exists.mp (searchCycle_isSome records)
  have hvisits : Visits (draftEdges records) ⟨[], none⟩ found ((draftEdges records).map Prod.fst) := by
    refine visits_foldlM (fun draftId _ _ _ hs hvisit =>
      visits_findCycle List.nodup_nil (List.isChain_singleton _) hs hvisit) ⟨?_, ?_⟩ hfound
    · exact fun _ _ hd => absurd hd List.not_mem_nil
    · exact fun _ hcycle => absurd hcycle (Option.not_mem_none _)
  unfold cycleErrors
  rw [hfound, Option.bind_some]
  cases hcycle : found.cycle with
  | none =>
    -- every draft of the graph was visited, and any other waits for nothing
    refine ⟨iff_of_true rfl fun draftId => ?_, fun _ ht => absurd ht List.not_mem_nil⟩
    rw [← transGen_swap]
    refine not_rel_self_of_acc (Acc.transGen ?_)
    by_cases hkey : draftId ∈ (draftEdges records).map Prod.fst
    · exact hvisits.sound.acyclic hcycle _ ((hvisits.visited hcycle).2.2 hkey)
    · refine ⟨_, fun blocker hblocker => ?_⟩
      change blocker ∈ (Dictionary.get? _ draftId).getD [] at hblocker
      rw [Dictionary.get?_eq_none_iff.mpr hkey] at hblocker
      cases hblocker
  | some cycle =>
    have hclosed := hvisits.sound.closed cycle hcycle
    refine ⟨iff_of_false (List.cons_ne_nil _ _) fun hnone => ?_, fun text htext => ?_⟩
    · -- the first draft of the path waits for itself
      obtain ⟨draftId, path, rfl, -, hchain⟩ := hclosed
      have hpairs := (List.isChain_iff_pairwise (R := TransGen _)).mp (hchain.imp fun _ _ => .single)
      rw [List.cons_append, List.pairwise_cons] at hpairs
      exact hnone draftId (hpairs.1 draftId (List.mem_append_right _ List.mem_cons_self))
    · exact ⟨cycle, hclosed, List.mem_singleton.mp htext⟩

end GoalFlight.Tasks
