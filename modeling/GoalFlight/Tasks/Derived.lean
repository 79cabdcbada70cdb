import GoalFlight.Tasks.Reviews

/-!
# The status of an item whose records are gone

`sync_dispatch_breadcrumbs` leaves a breadcrumb of every record on the items of its tasks, so
that the status of an item can be derived when the ledger has archived the records.  A record
is ordered by `updated_at` first, its breadcrumb by `ended_at` first.  So of two dispatches the
one that ended first may be the one that was updated last, and `Outlives` is load-bearing in
`derived_status_outlives_iff`.
-/

namespace GoalFlight.Tasks

open Json

variable (w : Readings) {crumb item' : Mapping}

/-! ### Candidates -/

/-- The order of candidates. -/
def earlier (a b : ℤ × String) : Bool := a.1 ≤ b.1

/-- What the records tell. -/
def recordStatuses (records : List Mapping) : List (ℤ × String) :=
  records.filterMap (timedStatus w true)

/-- The breadcrumbs that tell a status. -/
def tellingCrumbs (item : Mapping) : List Mapping :=
  (crumbsOf item).filter fun crumb =>
    (dispatchStatusFromRecord w.classify false crumb.document.1).isSome

/-- What an item tells of itself: its latest breadcrumb, and that it is done. -/
def itemStatuses (item : Mapping) : List (ℤ × String) :=
  (Latest.latest (timeLe w.iso) (tellingCrumbs w item)).toList.filterMap (timedStatus w false) ++
    (doneStatus w item).toList

/-- The status that is shown for that of a worker. -/
def shownStatus (status : String) : String :=
  if status = "worker-finished" then "awaiting-review" else status

/-- The status of an item that no candidate is for. -/
def idleStatus (items : List Mapping) (item : Mapping) : Except TaskError String :=
  if item.get? "kind" = some (.str "decision") then .ok "decision"
  else do
    let blockers ← gatingBlockers item
    return if unsatisfiedBlockers items [] blockers = [] then "pending" else "waiting"

/-- **The condition**: the record that was updated last was not updated after the item's own
latest breadcrumb or completion, or tells the same. -/
def Outlives (records : List Mapping) (item : Mapping) : Prop :=
  isDoneReviewed item = true ∨
    ∀ r, Latest.latest earlier (recordStatuses w records) = some r →
      ∃ p, Latest.latest earlier (itemStatuses w item) = some p ∧
        (r.1 ≤ p.1 ∨ shownStatus r.2 = shownStatus p.2)

variable {w} {items records : List Mapping} {item : Mapping}

theorem earlier_iff {a b : ℤ × String} : earlier a b = true ↔ a.1 ≤ b.1 := by
  unfold earlier
  rw [decide_eq_true_eq]

theorem earlier_total (a b : ℤ × String) : earlier a b = true ∨ earlier b a = true := by
  rw [earlier_iff, earlier_iff]
  exact le_total _ _

theorem earlier_trans {a b c : ℤ × String} (h : earlier a b = true) (h' : earlier b c = true) :
    earlier a c = true := by
  rw [earlier_iff] at *
  exact h.trans h'

theorem deriveStatus_eq (hreviewed : isDoneReviewed item = false)
    (hcheck : checkDispatches item = .ok ()) (live : List Mapping) :
    deriveStatus w items live item =
      match Latest.latest earlier (recordStatuses w live ++ itemStatuses w item) with
      | some p => .ok (shownStatus p.2)
      | none => idleStatus items item := by
  unfold deriveStatus latestDispatchBreadcrumb
  rw [hreviewed, hcheck, if_neg Bool.false_ne_true]
  simp only [bind, Except.bind, pure, Except.pure]
  cases hlatest : Latest.latest earlier (recordStatuses w live ++ itemStatuses w item) with
  | some p =>
    unfold recordStatuses itemStatuses tellingCrumbs earlier at hlatest
    rw [hlatest]
    rfl
  | none =>
    unfold recordStatuses itemStatuses tellingCrumbs earlier at hlatest
    rw [hlatest]
    rfl

theorem status_mem_taskDispatchStates {classify : Value → String} {live : Bool} {record : Value}
    {status : String} (h : dispatchStatusFromRecord classify live record = some status) :
    status ∈ taskDispatchStates := by
  have hsome : ∀ {s : String}, s ∈ taskDispatchStates → some s = some status →
      status ∈ taskDispatchStates := fun hs heq => Option.some.inj heq ▸ hs
  unfold dispatchStatusFromRecord at h
  simp only at h
  split at h
  · rename_i hraw
    rw [h, Option.any_some, decide_eq_true_eq] at hraw
    exact hraw
  split at h
  · exact hsome (by decide) h
  split at h
  · exact hsome (by decide) h
  split at h
  · exact hsome (by decide) h
  split at h
  · cases h
  split at h
  · split at h
    · exact hsome (by decide) h
    · exact hsome (by decide) h
  · exact hsome (by decide) h

theorem mem_taskDispatchStates_of_recordStatuses {r : ℤ × String}
    (h : r ∈ recordStatuses w records) : r.2 ∈ taskDispatchStates := by
  obtain ⟨record, -, hr⟩ := List.mem_filterMap.mp h
  obtain ⟨status, hstatus, rfl⟩ := Option.map_eq_some_iff.mp hr
  exact status_mem_taskDispatchStates hstatus

theorem idleStatus_ne {status : String} (h : status ∈ taskDispatchStates) :
    idleStatus items item ≠ .ok (shownStatus status) := by
  have hidle : ∀ s ∈ ["decision", "pending", "waiting"], (.ok s : Except TaskError String) ≠
      .ok (shownStatus status) := by
    intro s hs heq
    have hshown : ∀ status ∈ taskDispatchStates,
        shownStatus status ∉ ["decision", "pending", "waiting"] := by decide
    exact hshown status h (Except.ok.inj heq ▸ hs)
  unfold idleStatus
  split
  · exact hidle _ (by decide)
  · cases gatingBlockers item with
    | error e => exact nofun
    | ok blockers =>
      show (.ok (if unsatisfiedBlockers items [] blockers = [] then "pending" else "waiting") :
        Except TaskError String) ≠ _
      split
      · exact hidle _ (by decide)
      · exact hidle _ (by decide)

/-- **The status survives the records exactly under the condition**, of an item with breadcrumbs
or without. -/
theorem deriveStatus_eq_iff (hcheck : checkDispatches item = .ok ()) :
    deriveStatus w items records item = deriveStatus w items [] item ↔
      Outlives w records item := by
  cases hreviewed : isDoneReviewed item with
  | true =>
    refine iff_of_true ?_ (.inl hreviewed)
    unfold deriveStatus
    rw [hreviewed]
    rfl
  | false =>
    rw [deriveStatus_eq hreviewed hcheck, deriveStatus_eq hreviewed hcheck,
      Latest.latest_append earlier_total earlier_trans]
    show (_ = match Latest.latest earlier (itemStatuses w item) with
      | some p => _
      | none => _) ↔ _
    unfold Outlives
    rw [hreviewed, or_iff_right Bool.false_ne_true]
    cases hrecords : Latest.latest earlier (recordStatuses w records) with
    | none => exact iff_of_true rfl fun r hr => by cases hr
    | some r =>
      have hr := Latest.mem_of_latest earlier_total earlier_trans hrecords
      cases hitem : Latest.latest earlier (itemStatuses w item) with
      | none =>
        refine iff_of_false ?_ fun h => ?_
        · exact (idleStatus_ne (mem_taskDispatchStates_of_recordStatuses hr)).symm
        · obtain ⟨p, hp, -⟩ := h r rfl
          cases hp
      | some p =>
        have hiff : (∀ r', some r = some r' → ∃ p', some p = some p' ∧
            (r'.1 ≤ p'.1 ∨ shownStatus r'.2 = shownStatus p'.2)) ↔
            (r.1 ≤ p.1 ∨ shownStatus r.2 = shownStatus p.2) := by
          constructor
          · intro h
            obtain ⟨p', hp, hcase⟩ := h r rfl
            exact Option.some.inj hp ▸ hcase
          · rintro hcase r' hr'
            exact ⟨p, rfl, Option.some.inj hr' ▸ hcase⟩
        rw [hiff]
        simp only
        by_cases hle : r.1 ≤ p.1
        · rw [if_pos (earlier_iff.mpr hle)]
          exact iff_of_true rfl (.inl hle)
        · rw [if_neg (mt earlier_iff.mp hle), or_iff_right hle]
          exact ⟨Except.ok.inj, congrArg Except.ok⟩

/-! ### What a sync leaves -/

variable {edited : List Mapping} {st : Stamp}

theorem crumbsOf_appendBreadcrumb {action : String} {extra : List (String × Document)}
    (h : appendBreadcrumb crumb.document action extra st item = .ok item') :
    crumbsOf item' = crumbsOf item ++ [crumb] := by
  obtain ⟨pushed, hpushed, haudit⟩ := exists_of_bind_eq_ok h
  have hsame : crumbsOf item' = crumbsOf pushed := by
    unfold crumbsOf elements
    rw [get?_appendAudit haudit (by decide)]
  unfold pushTo at hpushed
  split at hpushed
  · cases hpushed
  · rename_i more hmore
    cases hpushed
    rw [hsame]
    unfold crumbsOf
    rw [elements_push hmore, List.filterMap_append, List.filterMap_cons, asMapping?_document]
    rfl

/-- A breadcrumb with the key of this one is there. -/
def HasKey (w : Readings) (crumb : Mapping) (item : Mapping) : Prop :=
  breadcrumbKey w.canonical crumb ∈ (crumbsOf item).map (breadcrumbKey w.canonical)

/-- The item has the breadcrumbs that another one has. -/
structure Extends (item item' : Mapping) : Prop where
  id : idOf item' = idOf item
  crumbs : ∀ crumb ∈ crumbsOf item, crumb ∈ crumbsOf item'

theorem Extends.refl (item : Mapping) : Extends item item := ⟨rfl, fun _ h => h⟩

theorem Extends.trans {a b c : Mapping} (h : Extends a b) (h' : Extends b c) : Extends a c :=
  ⟨h'.id.trans h.id, fun crumb hcrumb => h'.crumbs crumb (h.crumbs crumb hcrumb)⟩

theorem HasKey.of_extends (h : HasKey w crumb item) (hext : Extends item item') :
    HasKey w crumb item' := by
  obtain ⟨other, hother, hkey⟩ := List.mem_map.mp h
  exact List.mem_map.mpr ⟨other, hext.crumbs other hother, hkey⟩

theorem syncCrumb_leaves (h : syncCrumb w crumb st item = .ok item') :
    Extends item item' ∧ HasKey w crumb item' := by
  unfold syncCrumb at h
  split at h
  · rename_i hkey
    obtain rfl := Except.ok.inj h
    exact ⟨.refl item, hkey⟩
  · have hcrumbs := crumbsOf_appendBreadcrumb h
    refine ⟨⟨idOf_congr (get?_appendBreadcrumb h (by decide)), fun other hother => ?_⟩, ?_⟩
    · rw [hcrumbs]
      exact List.mem_append_left _ hother
    · unfold HasKey
      rw [hcrumbs, List.map_append, List.mem_append]
      exact .inr (List.mem_singleton_self _)

section

variable (hnodup : (items.map idOf).Nodup)
include hnodup

theorem mem_updateItem {itemId : String} {f : Mapping → Except TaskError Mapping}
    (h : updateItem itemId f items = .ok edited) (hitem' : item' ∈ edited) :
    ∃ item ∈ items, (idOf item = itemId ∧ f item = .ok item') ∨
      (idOf item ≠ itemId ∧ item' = item) := by
  induction items generalizing edited with
  | nil => cases h
  | cons first rest ih =>
    rw [List.map_cons, List.nodup_cons] at hnodup
    unfold updateItem at h
    split at h
    · rename_i hid
      cases hfirst : f first with
      | error e =>
        rw [hfirst] at h
        cases h
      | ok updated =>
        rw [hfirst] at h
        cases h
        rcases List.mem_cons.mp hitem' with rfl | hrest
        · exact ⟨first, List.mem_cons_self, .inl ⟨hid, hfirst⟩⟩
        · refine ⟨item', List.mem_cons_of_mem _ hrest, .inr ⟨fun hsame => ?_, rfl⟩⟩
          exact hnodup.1 (hid ▸ hsame ▸ List.mem_map_of_mem hrest)
    · rename_i hid
      cases hrest : updateItem itemId f rest with
      | error e =>
        rw [hrest] at h
        cases h
      | ok others =>
        rw [hrest] at h
        cases h
        rcases List.mem_cons.mp hitem' with rfl | hmem
        · exact ⟨item', List.mem_cons_self, .inr ⟨hid, rfl⟩⟩
        · obtain ⟨item, hitem, hcase⟩ := ih hnodup.2 hrest hmem
          exact ⟨item, List.mem_cons_of_mem _ hitem, hcase⟩

theorem syncRecord_leaves {entry : Mapping × String}
    (h : syncRecord w st items entry = .ok edited) :
    edited.map idOf = items.map idOf ∧ ∀ item' ∈ edited, (∃ item ∈ items, Extends item item') ∧
      (entry.2 = idOf item' → HasKey w (breadcrumbFromRecord w.classify st.now entry.1) item') := by
  unfold syncRecord at h
  split at h
  · refine ⟨map_updateItem (fun _ _ hsync => (syncCrumb_leaves hsync).1.id) h, ?_⟩
    intro item' hitem'
    obtain ⟨item, hitem, ⟨hid, hsync⟩ | ⟨hid, rfl⟩⟩ := mem_updateItem hnodup h hitem'
    · obtain ⟨hext, hkey⟩ := syncCrumb_leaves hsync
      exact ⟨⟨item, hitem, hext⟩, fun _ => hkey⟩
    · exact ⟨⟨item', hitem, .refl item'⟩, fun hsame => absurd hsame.symm hid⟩
  · rename_i habsent
    cases h
    refine ⟨rfl, fun item' hitem' => ⟨⟨item', hitem', .refl item'⟩, fun hsame => ?_⟩⟩
    exact absurd (hsame ▸ List.mem_map_of_mem hitem') habsent

theorem syncRecords_leave {entries : List (Mapping × String)}
    (h : entries.foldlM (syncRecord w st) items = .ok edited) :
    ∀ item' ∈ edited, (∃ item ∈ items, Extends item item') ∧ ∀ entry ∈ entries,
      entry.2 = idOf item' →
        HasKey w (breadcrumbFromRecord w.classify st.now entry.1) item' := by
  induction entries generalizing items with
  | nil =>
    cases h
    exact fun item' hitem' => ⟨⟨item', hitem', .refl item'⟩, List.forall_mem_nil _⟩
  | cons entry rest ih =>
    rw [List.foldlM_cons] at h
    obtain ⟨middle, hmiddle, hrest⟩ := exists_of_bind_eq_ok h
    obtain ⟨hids, hfirst⟩ := syncRecord_leaves hnodup hmiddle
    intro item' hitem'
    obtain ⟨⟨item, hitem, hext⟩, hkeys⟩ := ih (hids ▸ hnodup) hrest item' hitem'
    obtain ⟨⟨before, hbefore, hext'⟩, hkey⟩ := hfirst item hitem
    refine ⟨⟨before, hbefore, hext'.trans hext⟩, List.forall_mem_cons.mpr ⟨fun hsame => ?_, hkeys⟩⟩
    exact (hkey (hsame.trans hext.id)).of_extends hext

/-- **Every record leaves its breadcrumb**: an item of a sync has one with the key of each of its
records. -/
theorem hasKey_of_sync (h : syncDispatchBreadcrumbs w records st items = .ok edited)
    (hitem : item ∈ edited) {record : Mapping}
    (hrecord : record ∈ recordsOf records (idOf item))
    (hnamed : (Dispatch.textOf (record.field "dispatch_id").1).isSome) :
    HasKey w (breadcrumbFromRecord w.classify st.now record) item := by
  obtain ⟨hmem, hcurrent⟩ := List.mem_filter.mp hrecord
  rw [Bool.and_eq_true, decide_eq_true_eq] at hcurrent
  refine (syncRecords_leave hnodup h item hitem).2 (record, idOf item) ?_ rfl
  refine List.mem_flatMap.mpr ⟨record, List.mem_filter.mpr ⟨hmem, ?_⟩, ?_⟩
  · rw [hcurrent.1, hnamed]
    rfl
  · exact List.mem_map.mpr ⟨idOf item, hcurrent.2, rfl⟩

end

theorem checkDispatches_of_hasKey (h : HasKey w crumb item) :
    checkDispatches item = .ok () := by
  obtain ⟨other, hother, -⟩ := List.mem_map.mp h
  have hne : elements item "dispatches" ≠ [] := by
    intro hnil
    unfold crumbsOf at hother
    rw [hnil] at hother
    cases hother
  unfold checkDispatches
  split
  · rfl
  · rfl
  · rename_i v harr hget
    refine absurd (elements_eq_nil fun xs hxs => ?_) hne
    rw [hget] at hxs
    exact harr xs (Option.some.inj hxs)

/-- A record of the first task. -/
def recordAt (dispatch state terminal : String) (ended updated : ℕ) : Mapping :=
  Mapping.empty.update
    [("dispatch_id", textValue dispatch), ("task_ids", textValue "t-001"),
      ("state", textValue state), ("terminal_state", textValue terminal),
      ("ended_at", textValue (exampleTime ended)),
      ("updated_at", textValue (exampleTime updated))]

/-- A dispatch that failed first and was updated last, and one that finished in between. -/
def overlapping : List Mapping :=
  [recordAt "d-1" "failed" "error" 1 3, recordAt "d-2" "complete" "complete" 2 2]

/-- The two, of which the one that finished was updated last. -/
def inOrder : List Mapping :=
  [recordAt "d-1" "failed" "error" 1 1, recordAt "d-2" "complete" "complete" 2 3]

/-- The task. -/
def openTask : List Mapping :=
  [Mapping.empty.update [("id", textValue "t-001"), ("kind", textValue "task")]]

/-- The sync of the task. -/
def syncTask (records : List Mapping) : Except TaskError (List Mapping) :=
  syncDispatchBreadcrumbs exampleReadings records (stampAt 4) openTask

/-- Some item of the sync has these statuses, with the records there and without them. -/
def HasStatuses (records synced : List Mapping) (present gone : String) : Prop :=
  ∃ item ∈ synced,
    (deriveStatus exampleReadings synced (recordsOf records (idOf item)) item).toOption =
      some present ∧
    (deriveStatus exampleReadings synced [] item).toOption = some gone

instance (records synced : List Mapping) (present gone : String) :
    Decidable (HasStatuses records synced present gone) :=
  inferInstanceAs (Decidable (∃ item ∈ synced,
    (deriveStatus exampleReadings synced (recordsOf records (idOf item)) item).toOption =
      some present ∧
    (deriveStatus exampleReadings synced [] item).toOption = some gone))

end GoalFlight.Tasks
