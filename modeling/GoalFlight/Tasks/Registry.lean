import GoalFlight.Tasks.Acceptance
import Mathlib.Data.List.Dedup

/-!
# The registry of projects

`projects.json` has one row for each project.  `upsert_project_registry` rebuilds it from what
it reads and its own row, `maintain_project_registry` from what it reads.  Both read with
`_read_json_object`, which takes every failure for an empty object; maintenance then finds
nothing to change and writes nothing, while an upsert writes an index of its own row alone.
The condition `Careful` in `registry_keeps_projects_iff` is that no upsert reads so.
-/

namespace GoalFlight.Tasks.Registry

open Json Json.Value

variable {fault : Bool} {row row' : Mapping} {rows : List Mapping}

/-! ### Files -/

/-- What a file holds. -/
inductive Contents
  /-- Bytes that are no UTF-8 text. -/
  | undecodable
  /-- A text that is no JSON, as one that was cut short. -/
  | garbled
  | json (v : Document)
deriving DecidableEq

variable {file : Option Contents}

/-- The object that a file holds. -/
def Contents.object? : Contents → Option Mapping
  | .json v => asMapping? v.1
  | _ => none

/-- `_read_json_object`, where `fault` is an error of the system; none if it raises. -/
def readJsonObject (fault : Bool) : Option Contents → Option Mapping
  | none => some .empty
  | some file =>
    if fault then some .empty
    else if file = .undecodable then none
    else some (file.object?.getD .empty)

/-- The read of a file that is there fails. -/
def ReadFails (fault : Bool) (file : Option Contents) : Prop :=
  ∃ c, file = some c ∧ (fault = true ∨ c.object? = none)

/-- The read fails and goes for an empty object. -/
def FallsBack (fault : Bool) (file : Option Contents) : Prop :=
  ReadFails fault file ∧ (readJsonObject fault file).isSome

/-! ### Rows -/

/-- The rows that are objects. -/
def projectsOf (index : Mapping) : List Mapping :=
  (elements index "projects").filterMap asMapping?

/-- The project of a row. -/
def rootOf? (row : Mapping) : Option String := Dispatch.textOf (row.field "project_root").1

/-- The rows of an index, each of a project. -/
def rowsIn (file : Option Contents) : List Mapping :=
  (((file.bind Contents.object?).map projectsOf).getD []).filter fun row => (rootOf? row).isSome

/-- A text, or nothing. -/
def optText (text : Option String) : Document := (text.map textValue).getD ⟨.null, wellFormed_null⟩

theorem wellFormedItems_objects (rows : List Mapping) :
    wellFormedItems (rows.map fun row => Value.obj row.1) = true := by
  induction rows with
  | nil => rfl
  | cons row rest ih =>
    rw [List.map_cons, wellFormedItems, row.2, ih]
    rfl

/-- An array of rows. -/
def rowsValue (rows : List Mapping) : Document :=
  ⟨.arr (rows.map fun row => .obj row.1), by
    rw [Value.wellFormed]
    exact wellFormedItems_objects rows⟩

/-- The object of an index. -/
def indexObject (now : String) (rows : List Mapping) : Mapping :=
  Mapping.empty.update
    [("schema", textValue "goalflight.projects-index.v1"), ("updated_at", textValue now),
      ("projects", rowsValue rows)]

/-- The index that is written. -/
def indexContents (now : String) (rows : List Mapping) : Contents :=
  .json (indexObject now rows).document

/-! ### Upserting -/

/-- A call of `upsert_project_registry`. -/
structure Registration where
  /-- The canonical root. -/
  root : String
  storeDir : String
  now : String
  skillVersion : Option String := none
  repoIdentity : Option String := none
  /-- `throttle_s`, in microseconds. -/
  throttle : ℤ := 0

variable {r : Registration}

namespace Registration

/-- `_project_registry_entry`, with the directory of the store. -/
def entry (r : Registration) : Mapping :=
  Mapping.empty.update
    [("project_root", textValue r.root), ("last_seen", textValue r.now),
      ("skill_version", optText r.skillVersion), ("repo_identity", optText r.repoIdentity),
      ("store_dir", textValue r.storeDir)]

/-- `store-meta.json`. -/
def storeMeta (r : Registration) : Contents :=
  .json (Mapping.empty.update
    [("schema", textValue "goalflight.project-store-meta.v1"),
      ("project_root", textValue r.root), ("last_seen", textValue r.now),
      ("skill_version", optText r.skillVersion)]).document

/-- The project was seen a short while ago, where `iso` is `_parse_utc_iso` of a text. -/
def throttled (iso : String → Option ℤ) (r : Registration) (existing : Mapping) : Bool :=
  r.throttle ≠ 0 && rootOf? existing = some r.root &&
    (do
      let last ← iso (← Dispatch.textOf (existing.field "last_seen").1)
      let current ← iso r.now
      return decide (current - last < r.throttle)).getD false

end Registration

/-- The last row of a project. -/
def lastOf (rows : List Mapping) (root : String) : Option Mapping :=
  rows.reverse.find? fun row => rootOf? row = some root

/-- `[by_root[key] for key in sorted(by_root)]`. -/
def byRoot (rows : List Mapping) : List Mapping :=
  ((rows.filterMap rootOf?).dedup.mergeSort fun a b => a ≤ b).filterMap (lastOf rows)

/-! ### Maintenance -/

/-- `_path_presence`. -/
inductive Presence
  | present
  | absent
  | unknown
deriving DecidableEq

/-- What a look at a root shows. -/
structure RootView where
  presence : Presence
  /-- The parent; none of a root that is its own. -/
  parent : Option Presence
  /-- `_is_conventional_mount_parent`. -/
  mountParent : Bool
  /-- The parent is empty; none if it cannot be listed. -/
  emptyParent : Option Bool

/-- The kinds of a root. -/
inductive RootKind
  | live
  | prunable
  | unreachable
  | ambiguous
deriving DecidableEq

/-- `classify_registry_root`; a root that is no path has no view. -/
def classifyRegistryRoot : Option RootView → RootKind
  | none => .unreachable
  | some v =>
    match v.presence with
    | .unknown => .unreachable
    | .present => .live
    | .absent =>
      if v.parent ≠ some .present then .unreachable
      else if v.mountParent then .ambiguous
      else match v.emptyParent with
        | none => .unreachable
        | some true => .ambiguous
        | some false => .prunable

/-- `_registry_identity_needs_backfill`. -/
def needsBackfill (row : Mapping) : Bool :=
  match row.get? "repo_identity" with
  | none => true
  | some (.str s) => strip s.toList = []
  | some _ => false

/-- A call of `maintain_project_registry`, and what it looks at. -/
structure Maintenance where
  pruneGhosts : Bool := false
  dryRun : Bool := false
  now : String
  view : String → Option RootView
  /-- `git_repo_identity`. -/
  repoIdentity : String → Option String

namespace Maintenance

/-- The row is dropped. -/
def prunes (m : Maintenance) (root : String) : Prop :=
  m.pruneGhosts = true ∧ classifyRegistryRoot (m.view root) = .prunable

instance (m : Maintenance) (root : String) : Decidable (m.prunes root) :=
  inferInstanceAs (Decidable (m.pruneGhosts = true ∧ _ = RootKind.prunable))

/-- What becomes of a row. -/
def keep (m : Maintenance) (row : Mapping) : Option Mapping :=
  match (rootOf? row).filter (· ≠ "") with
  | none => some row
  | some root =>
    if m.prunes root then none
    else if classifyRegistryRoot (m.view root) = .live ∧ needsBackfill row = true then
      some (row.set "repo_identity" (optText (m.repoIdentity root)))
    else some row

end Maintenance

/-! ### The calls -/

/-- The files, and the calls past their throttle. -/
structure State where
  index : Option Contents
  /-- `store-meta.json`, by the directory of the store. -/
  metas : String → Option Contents
  pending : List Registration

/-- What happens.  The lock of the index makes one step of what is done under it. -/
inductive Action
  /-- An upsert up to the lock: it ends there, throttled, or stamps its own store. -/
  | begin (r : Registration) (fault : Bool)
  /-- The rest of an upsert that waits for the lock. -/
  | publish (i : ℕ) (fault : Bool)
  /-- An upsert that ends without the rest. -/
  | abandon (i : ℕ)
  /-- A call of `maintain_project_registry`. -/
  | maintain (m : Maintenance) (fault : Bool)

variable (iso : String → Option ℤ)

/-- The index that an upsert writes. -/
def upserted (r : Registration) (fault : Bool) (file : Option Contents) : Option Contents :=
  (readJsonObject fault file).map fun index =>
    indexContents r.now (byRoot (projectsOf index ++ [r.entry]))

/-- The index that maintenance writes, if it changes a row. -/
def maintained (m : Maintenance) (fault : Bool) (file : Option Contents) : Option Contents :=
  (readJsonObject fault file).bind fun index =>
    let kept := (projectsOf index).filterMap m.keep
    if kept ≠ projectsOf index ∧ m.dryRun = false then some (indexContents m.now kept) else none

/-- What an action writes to the index. -/
def Action.replaces (s : State) : Action → Option Contents
  | .publish i fault => (s.pending[i]?).bind fun r => upserted r fault s.index
  | .maintain m fault => maintained m fault s.index
  | _ => none

/-- An upsert up to the lock. -/
def beginning (s : State) (r : Registration) (fault : Bool) : State :=
  match readJsonObject fault (s.metas r.storeDir) with
  | none => s
  | some existing =>
    if r.throttled iso existing then s
    else { s with
      metas := Function.update s.metas r.storeDir (some r.storeMeta)
      pending := s.pending ++ [r] }

/-- One action. -/
def step (s : State) (a : Action) : State :=
  match a with
  | .begin r fault => beginning iso s r fault
  | .abandon i => { s with pending := s.pending.eraseIdx i }
  | .publish i _ =>
    { s with index := (a.replaces s).or s.index, pending := s.pending.eraseIdx i }
  | .maintain _ _ => { s with index := (a.replaces s).or s.index }

/-! ### What is asked of a run -/

/-- The row is there but for the identity of its repository. -/
def SameRow (row row' : Mapping) : Prop :=
  ∀ key, key ≠ "repo_identity" → row'.get? key = row.get? key

/-- The call is about the project of the row, or was asked to prune it. -/
def Action.mayDrop (s : State) (row : Mapping) : Action → Prop
  | .publish i _ => ∃ r, s.pending[i]? = some r ∧ rootOf? row = some r.root
  | .maintain m _ => ∃ root, rootOf? row = some root ∧ m.prunes root
  | _ => False

/-- The index is read, and the read fails. -/
def Action.readFails (s : State) : Action → Prop
  | .publish _ fault | .maintain _ fault => ReadFails fault s.index
  | _ => False

/-- **The registry loses no project**: the rows of other projects stay, and what a failed read
made is not written. -/
structure KeepsProjects (s : State) (a : Action) : Prop where
  rows : ∀ row ∈ rowsIn s.index, ¬ a.mayDrop s row →
    ∃ row' ∈ rowsIn (step iso s a).index, SameRow row row'
  read : a.readFails s → a.replaces s = none

/-- The rows of one project are alike, but for those of `root`. -/
def Alike (root : String) (rows : List Mapping) : Prop :=
  ∀ row ∈ rows, ∀ row' ∈ rows, rootOf? row = rootOf? row' → rootOf? row ≠ some root →
    SameRow row row'

/-- **The condition of a step**: no upsert goes on from a failed read as from an empty index, or
finds two unlike rows of another project. -/
def Careful (s : State) : Action → Prop
  | .publish i fault => ∀ r, s.pending[i]? = some r →
      ¬ FallsBack fault s.index ∧ Alike r.root (rowsIn s.index)
  | _ => True

/-! ### Rows that are written are read -/

theorem filterMap_asMapping?_objects (rows : List Mapping) :
    (rows.map fun row => Value.obj row.1).filterMap asMapping? = rows := by
  induction rows with
  | nil => rfl
  | cons row rest ih =>
    have hrow : asMapping? (Value.obj row.1) = some row := asMapping?_document row
    rw [List.map_cons, List.filterMap_cons, hrow, ih]

theorem projectsOf_indexObject (now : String) (rows : List Mapping) :
    projectsOf (indexObject now rows) = rows := by
  unfold projectsOf elements indexObject Mapping.update
  rw [List.foldl_cons, List.foldl_cons, List.foldl_cons, List.foldl_nil, Mapping.get?_set]
  exact filterMap_asMapping?_objects rows

theorem rowsIn_indexContents (now : String) (rows : List Mapping) :
    rowsIn (some (indexContents now rows)) = rows.filter fun row => (rootOf? row).isSome := by
  have hobject : Contents.object? (indexContents now rows) = some (indexObject now rows) :=
    asMapping?_document _
  unfold rowsIn
  rw [Option.bind_some, hobject, Option.map_some, Option.getD_some, projectsOf_indexObject]

theorem projectsOf_empty : projectsOf .empty = [] := rfl

theorem read_of_not_readFails (h : ¬ ReadFails fault file) :
    ∃ index, readJsonObject fault file = some index ∧
      rowsIn file = (projectsOf index).filter fun row => (rootOf? row).isSome := by
  cases file with
  | none => exact ⟨.empty, rfl, rfl⟩
  | some c =>
    have hok : ¬ (fault = true ∨ c.object? = none) := fun hfails => h ⟨c, rfl, hfails⟩
    obtain ⟨hfault, hobject⟩ := not_or.mp hok
    obtain ⟨index, hindex⟩ := Option.ne_none_iff_exists'.mp hobject
    refine ⟨index, ?_, ?_⟩
    · have hdecodable : c ≠ .undecodable := by
        rintro rfl
        exact hobject rfl
      unfold readJsonObject
      simp only
      rw [if_neg hfault, if_neg hdecodable, hindex]
      rfl
    · unfold rowsIn
      rw [Option.bind_some, hindex]
      rfl

theorem read_of_readFails (h : ReadFails fault file) :
    (readJsonObject fault file = none ∧ rowsIn file = []) ∨
      readJsonObject fault file = some .empty := by
  obtain ⟨c, rfl, hfails⟩ := h
  unfold readJsonObject
  simp only
  by_cases hfault : fault = true
  · rw [if_pos hfault]
    exact .inr rfl
  · have hobject := hfails.resolve_left hfault
    rw [if_neg hfault]
    split
    · rename_i hundecodable
      subst hundecodable
      exact .inl ⟨rfl, rfl⟩
    · rw [hobject]
      exact .inr rfl

/-! ### The rows of an upsert -/

theorem SameRow.refl (row : Mapping) : SameRow row row := fun _ _ => rfl

theorem SameRow.symm (h : SameRow row row') : SameRow row' row :=
  fun key hkey => (h key hkey).symm

theorem SameRow.trans {row'' : Mapping} (h : SameRow row row') (h' : SameRow row' row'') :
    SameRow row row'' :=
  fun key hkey => (h' key hkey).trans (h key hkey)

theorem SameRow.root (h : SameRow row row') : rootOf? row' = rootOf? row := by
  unfold rootOf?
  rw [Mapping.field_val, Mapping.field_val, h "project_root" (by decide)]

theorem mem_of_lastOf {root : String} (h : lastOf rows root = some row) :
    row ∈ rows ∧ rootOf? row = some root :=
  ⟨List.mem_reverse.mp (List.mem_of_find?_eq_some h), by simpa using List.find?_some h⟩

theorem lastOf_of_mem {root : String} (hrow : row ∈ rows) (hroot : rootOf? row = some root) :
    ∃ last, lastOf rows root = some last := by
  refine Option.isSome_iff_exists.mp (List.find?_isSome.mpr ?_)
  exact ⟨row, List.mem_reverse.mpr hrow, decide_eq_true hroot⟩

/-- **One row for each project**, its last. -/
theorem mem_byRoot :
    row ∈ byRoot rows ↔ ∃ root, lastOf rows root = some row := by
  unfold byRoot
  rw [List.mem_filterMap]
  constructor
  · rintro ⟨root, -, hlast⟩
    exact ⟨root, hlast⟩
  · rintro ⟨root, hlast⟩
    refine ⟨root, ?_, hlast⟩
    rw [List.mem_mergeSort, List.mem_dedup, List.mem_filterMap]
    exact ⟨row, mem_of_lastOf hlast⟩

theorem eq_of_mem_byRoot (h : row ∈ byRoot rows) (h' : row' ∈ byRoot rows)
    (hroot : rootOf? row = rootOf? row') : row = row' := by
  obtain ⟨root, hlast⟩ := mem_byRoot.mp h
  obtain ⟨root', hlast'⟩ := mem_byRoot.mp h'
  have hsame : root = root' := by
    rw [(mem_of_lastOf hlast).2, (mem_of_lastOf hlast').2] at hroot
    exact Option.some.inj hroot
  rw [← hsame, hlast] at hlast'
  exact Option.some.inj hlast'

theorem rootOf?_entry (r : Registration) : rootOf? r.entry = some r.root := by
  have hroot : r.entry.get? "project_root" = some (.str r.root) := by
    unfold Registration.entry Mapping.update
    simp only [List.foldl_cons, List.foldl_nil]
    iterate 4 rw [Mapping.get?_set_of_ne _ (by decide)]
    exact Mapping.get?_set _ _ _
  unfold rootOf?
  rw [Mapping.field_val, hroot]
  rfl

theorem rowsIn_upserted {index : Mapping} (h : readJsonObject fault file = some index) :
    rowsIn (upserted r fault file) = byRoot (projectsOf index ++ [r.entry]) := by
  unfold upserted
  rw [h, Option.map_some, rowsIn_indexContents, List.filter_eq_self]
  intro row hrow
  obtain ⟨root, hlast⟩ := mem_byRoot.mp hrow
  exact Option.isSome_iff_exists.mpr ⟨root, (mem_of_lastOf hlast).2⟩

/-- **What an upsert keeps**: the rows of other projects, if those of one project are alike. -/
theorem upserted_keeps_iff {index : Mapping} (hread : readJsonObject fault file = some index)
    (hrows : rowsIn file = (projectsOf index).filter fun row => (rootOf? row).isSome) :
    (∀ row ∈ rowsIn file, rootOf? row ≠ some r.root →
        ∃ row' ∈ rowsIn (upserted r fault file), SameRow row row') ↔
      Alike r.root (rowsIn file) := by
  rw [rowsIn_upserted hread]
  constructor
  · intro hkept row hrow row' hrow' hroot hother
    obtain ⟨last, hlast, hsame⟩ := hkept row hrow hother
    obtain ⟨last', hlast', hsame'⟩ := hkept row' hrow' (hroot ▸ hother)
    have hroots : rootOf? last = rootOf? last' := by rw [hsame.root, hsame'.root, hroot]
    obtain rfl := eq_of_mem_byRoot hlast hlast' hroots
    exact hsame.trans hsame'.symm
  · intro halike row hrow hother
    obtain ⟨hmem, hsome⟩ := List.mem_filter.mp (hrows ▸ hrow)
    obtain ⟨root, hroot⟩ := Option.isSome_iff_exists.mp hsome
    obtain ⟨last, hlast⟩ := lastOf_of_mem (List.mem_append_left [r.entry] hmem) hroot
    obtain ⟨hlastmem, hlastroot⟩ := mem_of_lastOf hlast
    refine ⟨last, mem_byRoot.mpr ⟨root, hlast⟩, halike row hrow last ?_ ?_ hother⟩
    · rw [hrows, List.mem_filter]
      refine ⟨(List.mem_append.mp hlastmem).resolve_right fun hentry => ?_, by rw [hlastroot]; rfl⟩
      -- The row of the upsert itself is of another project.
      rw [List.mem_singleton.mp hentry, rootOf?_entry] at hlastroot
      exact hother (hroot.trans hlastroot.symm)
    · rw [hroot, hlastroot]

/-! ### The rows of maintenance -/

theorem sameRow_set (row : Mapping) (v : Document) : SameRow row (row.set "repo_identity" v) :=
  fun _ hkey => row.get?_set_of_ne hkey v

theorem keep_of_not_prunes {m : Maintenance} {root : String} (hroot : rootOf? row = some root)
    (h : ¬ m.prunes root) :
    ∃ row', m.keep row = some row' ∧ SameRow row row' := by
  unfold Maintenance.keep
  rw [hroot, Option.filter_some]
  split
  · exact ⟨row, rfl, .refl row⟩
  · rename_i named hnamed
    have hname : root = named := by
      split at hnamed
      · exact Option.some.inj hnamed
      · cases hnamed
    rw [if_neg (hname ▸ h)]
    split
    · exact ⟨_, rfl, sameRow_set row _⟩
    · exact ⟨row, rfl, .refl row⟩

theorem maintained_eq_none_of_readFails {m : Maintenance} (h : ReadFails fault file) :
    maintained m fault file = none := by
  unfold maintained
  rcases read_of_readFails h with ⟨hread, -⟩ | hread
  · rw [hread]
    rfl
  · rw [hread, Option.bind_some]
    simp only
    rw [projectsOf_empty, if_neg (fun hchanged => hchanged.1 rfl)]

/-- **Maintenance keeps every row** that it does not prune. -/
theorem maintained_keeps {m : Maintenance} {written : Option Contents}
    (h : written = maintained m fault file) (hwritten : written.isSome)
    (hrow : row ∈ rowsIn file) (hkept : ∀ root, rootOf? row = some root → ¬ m.prunes root) :
    ∃ row' ∈ rowsIn written, SameRow row row' := by
  have hreads : ¬ ReadFails fault file := by
    intro hfails
    rw [h, maintained_eq_none_of_readFails hfails] at hwritten
    cases hwritten
  obtain ⟨index, hread, hrows⟩ := read_of_not_readFails hreads
  unfold maintained at h
  rw [hread, Option.bind_some] at h
  simp only at h
  split at h
  · obtain ⟨hmem, hsome⟩ := List.mem_filter.mp (hrows ▸ hrow)
    obtain ⟨root, hroot⟩ := Option.isSome_iff_exists.mp hsome
    obtain ⟨row', hkeep, hsame⟩ := keep_of_not_prunes hroot (hkept root hroot)
    refine ⟨row', ?_, hsame⟩
    rw [h, rowsIn_indexContents, List.mem_filter]
    exact ⟨List.mem_filterMap.mpr ⟨row, hmem, hkeep⟩, by rw [hsame.root]; exact hsome⟩
  · rw [h] at hwritten
    cases hwritten

/-! ### Steps -/

variable {iso} {s : State}

theorem index_step (a : Action) : (step iso s a).index = (a.replaces s).or s.index := by
  cases a with
  | begin r fault =>
    show (beginning iso s r fault).index = s.index
    unfold beginning
    split
    · rfl
    · split <;> rfl
  | publish i fault => rfl
  | abandon i => rfl
  | maintain m fault => rfl

theorem keepsProjects_of_not_replaces {a : Action} (h : a.replaces s = none) :
    KeepsProjects iso s a := by
  refine ⟨fun row hrow _ => ⟨row, ?_, .refl row⟩, fun _ => h⟩
  rw [index_step, h, Option.none_or]
  exact hrow

theorem keepsProjects_maintain (m : Maintenance) (fault : Bool) :
    KeepsProjects iso s (.maintain m fault) := by
  cases hwritten : maintained m fault s.index with
  | none => exact keepsProjects_of_not_replaces hwritten
  | some file =>
    refine ⟨fun row hrow hdrop => ?_, fun hfails => maintained_eq_none_of_readFails hfails⟩
    rw [index_step]
    show ∃ row' ∈ rowsIn ((maintained m fault s.index).or s.index), _
    rw [hwritten, Option.some_or]
    refine maintained_keeps hwritten.symm rfl hrow fun root hroot hprunes => ?_
    exact hdrop ⟨root, hroot, hprunes⟩

/-- **An upsert keeps the projects exactly under the condition.** -/
theorem keepsProjects_publish_iff {i : ℕ} (hr : s.pending[i]? = some r) :
    KeepsProjects iso s (.publish i fault) ↔
      ¬ FallsBack fault s.index ∧ Alike r.root (rowsIn s.index) := by
  have hreplaces : (Action.publish i fault).replaces s = upserted r fault s.index := by
    show (s.pending[i]?).bind _ = _
    rw [hr, Option.bind_some]
  by_cases hfails : ReadFails fault s.index
  · rcases read_of_readFails hfails with ⟨hraises, hempty⟩ | hfallback
    · -- The read raises: nothing is written, and there was no row to lose.
      have hnone : (Action.publish i fault).replaces s = none := by
        rw [hreplaces, upserted, hraises, Option.map_none]
      refine iff_of_true (keepsProjects_of_not_replaces hnone) ⟨fun hback => ?_, ?_⟩
      · rw [FallsBack, hraises] at hback
        exact absurd hback.2 Bool.false_ne_true
      · rw [hempty]
        exact nofun
    · refine iff_of_false (fun hkeeps => ?_) (fun hcareful => ?_)
      · have hnone := hkeeps.read hfails
        rw [hreplaces, upserted, hfallback] at hnone
        cases hnone
      · exact hcareful.1 ⟨hfails, by rw [hfallback]; rfl⟩
  · obtain ⟨index, hread, hrows⟩ := read_of_not_readFails hfails
    have hwritten : ((Action.publish i fault).replaces s).or s.index =
        upserted r fault s.index := by
      rw [hreplaces, upserted, hread]
      rfl
    have hdrop : ∀ row : Mapping, ¬ (Action.publish i fault).mayDrop s row ↔
        rootOf? row ≠ some r.root := by
      refine fun row => not_congr ⟨?_, fun hroot => ⟨r, hr, hroot⟩⟩
      rintro ⟨r', hr', hroot⟩
      rw [hr] at hr'
      rw [hroot, Option.some.inj hr']
    have hkeeps := upserted_keeps_iff (r := r) hread hrows
    constructor
    · refine fun h => ⟨fun hback => hfails hback.1, hkeeps.mp fun row hrow hother => ?_⟩
      have hrow' := h.rows row hrow ((hdrop row).mpr hother)
      rwa [index_step, hwritten] at hrow'
    · rintro ⟨-, halike⟩
      refine ⟨fun row hrow hkept => ?_, fun hread' => absurd hread' hfails⟩
      rw [index_step, hwritten]
      exact hkeeps.mpr halike row hrow ((hdrop row).mp hkept)

/-- **One step keeps the projects exactly under the condition.** -/
theorem keepsProjects_iff (s : State) (a : Action) : KeepsProjects iso s a ↔ Careful s a := by
  cases a with
  | begin r fault => exact iff_of_true (keepsProjects_of_not_replaces rfl) trivial
  | abandon i => exact iff_of_true (keepsProjects_of_not_replaces rfl) trivial
  | maintain m fault => exact iff_of_true (keepsProjects_maintain m fault) trivial
  | publish i fault =>
    cases hr : s.pending[i]? with
    | none =>
      have hnone : (Action.publish i fault).replaces s = none := by
        show (s.pending[i]?).bind _ = _
        rw [hr, Option.bind_none]
      refine iff_of_true (keepsProjects_of_not_replaces hnone) fun r hr' => ?_
      rw [hr] at hr'
      cases hr'
    | some r =>
      rw [keepsProjects_publish_iff hr]
      constructor
      · intro h r' hr'
        rw [hr] at hr'
        exact Option.some.inj hr' ▸ h
      · exact fun h => h r hr

/-- **The registry loses no project**, from any contents of the index and in every interleaving
of the calls, exactly where every upsert is careful. -/
theorem registry_keeps_projects_iff (iso : String → Option ℤ) (s : State)
    (actions : List Action) :
    Machine.Meets (step iso) (KeepsProjects iso) s actions ↔
      Machine.Meets (step iso) Careful s actions := by
  have hstep : ∀ s, ∀ a ∈ actions, True →
      (KeepsProjects iso s a ↔ Careful s a) ∧ (Careful s a → True) :=
    fun s a _ _ => ⟨keepsProjects_iff s a, fun _ => trivial⟩
  exact Machine.meets_iff_of_invariant hstep trivial

/-! ### A read that fails -/

/-- A registration of a second project. -/
def secondProject : Registration where
  root := "/b"
  storeDir := "b"
  now := "t1"

/-- The index with one project, and an upsert of another one that waits for the lock. -/
def oneProject : State where
  index := some (indexContents "t0"
    [(secondProject.entry.set "project_root" (textValue "/a"))])
  metas := fun _ => none
  pending := [secondProject]

/-- **A failed read loses the other project**: the index is there and well formed, but cannot be
read this once, and what is written has only the row of the upsert. -/
theorem failed_read_loses_project :
    ¬ Machine.Meets (step fun _ => none) (KeepsProjects fun _ => none) oneProject
        [.publish 0 true] ∧
      ∀ row ∈ rowsIn (step (fun _ => none) oneProject (.publish 0 true)).index,
        rootOf? row = some "/b" := by
  constructor
  · rintro ⟨hkeeps, -⟩
    have hcareful := (keepsProjects_iff oneProject (.publish 0 true)).mp hkeeps secondProject rfl
    exact hcareful.1 ⟨⟨_, rfl, .inl rfl⟩, rfl⟩
  · intro row hrow
    have hread : readJsonObject true oneProject.index = some .empty := rfl
    rw [show (step (fun _ => none) oneProject (.publish 0 true)).index =
      upserted secondProject true oneProject.index from rfl, rowsIn_upserted hread] at hrow
    obtain ⟨root, hlast⟩ := mem_byRoot.mp hrow
    obtain rfl : row = secondProject.entry := List.mem_singleton.mp (mem_of_lastOf hlast).1
    exact rootOf?_entry secondProject

end GoalFlight.Tasks.Registry
