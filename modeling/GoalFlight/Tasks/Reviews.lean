import GoalFlight.Tasks.Acceptance

/-!
# The review that an acceptance records

Every review of an item in the store was logged, in the order in which it stands there, and
every logged one is still there: no command removes a breadcrumb.
-/

namespace GoalFlight.Tasks

open Json

variable {itemId : String} {item item' : Mapping}

/-- The review of an item that an entry logs. -/
def Logged.reviewOf (itemId : String) : Logged → Option Mapping
  | .review id crumb => if id = itemId then some crumb else none
  | .reopened _ => none

/-- The reviews that were logged for an item. -/
def loggedReviews (itemId : String) (log : List Logged) : List Mapping :=
  log.filterMap (Logged.reviewOf itemId)

theorem loggedReviews_append (itemId : String) (log more : List Logged) :
    loggedReviews itemId (log ++ more) = loggedReviews itemId log ++ loggedReviews itemId more :=
  List.filterMap_append

/-! ### What the store has of the log -/

/-- The items have the reviews that were logged. -/
structure Logs (log : List Logged) (traces : List (String × List Mapping)) : Prop where
  nodup : (traces.map Prod.fst).Nodup
  reviews : ∀ t ∈ traces, t.2 = loggedReviews t.1 log
  unlogged : ∀ id, id ∉ traces.map Prod.fst → loggedReviews id log = []

/-- A review of an item. -/
def extendTrace (itemId : String) (crumb : Mapping) (t : String × List Mapping) :
    String × List Mapping := if t.1 = itemId then (t.1, t.2 ++ [crumb]) else t

theorem fst_extendTrace (itemId : String) (crumb : Mapping) (t : String × List Mapping) :
    (extendTrace itemId crumb t).1 = t.1 := by
  unfold extendTrace
  split <;> rfl

theorem map_fst_extendTrace (itemId : String) (crumb : Mapping)
    (traces : List (String × List Mapping)) :
    (traces.map (extendTrace itemId crumb)).map Prod.fst = traces.map Prod.fst := by
  rw [List.map_map]
  exact List.map_congr_left fun t _ => fst_extendTrace itemId crumb t

namespace Logs

variable {log : List Logged} {traces : List (String × List Mapping)}

theorem append {new : List (String × List Mapping)} (h : Logs log traces)
    (hnodup : ((traces ++ new).map Prod.fst).Nodup) (hnew : ∀ t ∈ new, t.2 = []) :
    Logs log (traces ++ new) := by
  refine ⟨hnodup, ?_, ?_⟩
  · intro t ht
    rcases List.mem_append.mp ht with hold | hin
    · exact h.reviews t hold
    · have hfresh : t.1 ∉ traces.map Prod.fst := by
        intro hmem
        rw [List.map_append, List.nodup_append] at hnodup
        exact hnodup.2.2 t.1 hmem t.1 (List.mem_map_of_mem hin) rfl
      rw [hnew t hin, h.unlogged t.1 hfresh]
  · intro id hid
    rw [List.map_append, List.mem_append, not_or] at hid
    exact h.unlogged id hid.1

theorem reopened (h : Logs log traces) (itemIds : List String) :
    Logs (log ++ [.reopened itemIds]) traces := by
  have hsame : ∀ id, loggedReviews id (log ++ [.reopened itemIds]) = loggedReviews id log := by
    intro id
    rw [loggedReviews_append]
    exact List.append_nil _
  refine ⟨h.nodup, fun t ht => ?_, fun id hid => ?_⟩
  · rw [hsame]
    exact h.reviews t ht
  · rw [hsame]
    exact h.unlogged id hid

theorem review (h : Logs log traces) (hin : itemId ∈ traces.map Prod.fst) (crumb : Mapping) :
    Logs (log ++ [.review itemId crumb])
      (traces.map (extendTrace itemId crumb)) := by
  have hlog : ∀ id, loggedReviews id (log ++ [.review itemId crumb]) =
      loggedReviews id log ++ if itemId = id then [crumb] else [] := by
    intro id
    rw [loggedReviews_append]
    congr 1
    by_cases hid : itemId = id
    · rw [if_pos hid]
      exact List.filterMap_cons_some (if_pos hid)
    · rw [if_neg hid]
      exact List.filterMap_cons_none (if_neg hid)
  refine ⟨by rw [map_fst_extendTrace]; exact h.nodup, ?_, ?_⟩
  · intro t ht
    obtain ⟨old, hold, rfl⟩ := List.mem_map.mp ht
    rw [fst_extendTrace, hlog, ← h.reviews old hold]
    unfold extendTrace
    by_cases hid : old.1 = itemId
    · rw [if_pos hid, if_pos hid.symm]
    · rw [if_neg hid, if_neg (Ne.symm hid), List.append_nil]
  · intro id hid
    rw [map_fst_extendTrace] at hid
    have hne : itemId ≠ id := by
      rintro rfl
      exact hid hin
    rw [hlog, if_neg hne, List.append_nil]
    exact h.unlogged id hid

end Logs

/-! ### What the updates leave -/

variable {w : Readings} {st : Stamp} {items edited : List Mapping}

/-- The update keeps the items and their reviews, and may add items that have none. -/
def Adds (items edited : List Mapping) : Prop :=
  ∃ new : List Mapping, edited.map trace = items.map trace ++ new.map trace ∧
    ∀ item ∈ new, reviewsOf item = []

theorem Adds.of_map (h : edited.map trace = items.map trace) : Adds items edited :=
  ⟨[], by rw [h, List.map_nil, List.append_nil], nofun⟩

theorem Adds.append (h : FieldsIn itemKeys item) : Adds items (items ++ [item]) := by
  refine ⟨[item], List.map_append, ?_⟩
  intro other hother
  rw [List.mem_singleton.mp hother]
  exact reviewsOf_eq_nil (h "dispatches" (by decide))

theorem Adds.trans {a b c : List Mapping} (h : Adds a b) (h' : Adds b c) : Adds a c := by
  obtain ⟨new, hmap, hnew⟩ := h
  obtain ⟨more, hmap', hmore⟩ := h'
  refine ⟨new ++ more, by rw [hmap', hmap, List.map_append, List.append_assoc], ?_⟩
  intro item hitem
  exact (List.mem_append.mp hitem).elim (hnew item) (hmore item)

theorem Adds.foldlM {β : Type} {f : List Mapping → β → Except TaskError (List Mapping)}
    (hf : ∀ items b edited, f items b = .ok edited → Adds items edited) {bs : List β}
    (h : bs.foldlM f items = .ok edited) : Adds items edited := by
  induction bs generalizing items with
  | nil =>
    cases h
    exact .of_map rfl
  | cons b rest ih =>
    rw [List.foldlM_cons] at h
    obtain ⟨next, hnext, h⟩ := exists_of_bind_eq_ok h
    exact (hf items b next hnext).trans (ih h)

theorem Adds.updateItem {f : Mapping → Except TaskError Mapping}
    (hf : ∀ item item', f item = .ok item' → trace item' = trace item)
    (h : updateItem itemId f items = .ok edited) : Adds items edited :=
  .of_map (map_updateItem hf h)

theorem trace_markDone {all : List Mapping} {force : Bool} {note resolution : String}
    (h : markDone all force note resolution st item = .ok item') :
    trace item' = trace item :=
  trace_congr (get?_markDone h (by decide)) (get?_markDone h (by decide))

theorem trace_reopen {dispatch reason : String}
    (h : reopen dispatch reason st item = .ok item') : trace item' = trace item :=
  trace_congr (get?_reopen h (by decide)) (get?_reopen h (by decide))

theorem trace_markAccepted {dispatch findings : Document}
    (h : markAccepted dispatch findings st item = .ok item') : trace item' = trace item :=
  trace_congr (get?_markAccepted h (by decide)) (get?_markAccepted h (by decide))

theorem trace_appendBreadcrumb {crumb : Mapping} (hcrumb : ¬ IsReview crumb) {action : String}
    {extra : List (String × Document)}
    (h : appendBreadcrumb crumb.document action extra st item = .ok item') :
    trace item' = trace item := by
  unfold trace
  rw [idOf_congr (get?_appendBreadcrumb h (by decide)), reviewsOf_appendBreadcrumb h,
    if_neg hcrumb, List.append_nil]

theorem trace_syncCrumb {crumb : Mapping} (hcrumb : ¬ IsReview crumb)
    (h : syncCrumb w crumb st item = .ok item') : trace item' = trace item := by
  unfold syncCrumb at h
  split at h
  · cases h
    rfl
  · exact trace_appendBreadcrumb hcrumb h

theorem adds_sync {records : List Mapping}
    (h : syncDispatchBreadcrumbs w records st items = .ok edited) : Adds items edited := by
  refine .foldlM ?_ h
  intro items entry edited h
  unfold syncRecord at h
  split at h
  · exact .updateItem (fun _ _ => trace_syncCrumb (not_isReview_of_keys (by decide))) h
  · cases h
    exact .of_map rfl

theorem adds_watch {itemIds : List String} {values : String → Document}
    (h : appendDispatchBreadcrumbs itemIds values st items = .ok edited) : Adds items edited := by
  have hcrumb : ¬ IsReview ((setPresent values watcherKeys Mapping.empty).setDefault "ts"
      (textValue st.now)) := by
    unfold IsReview
    rw [Mapping.get?_setDefault_of_ne _ (by decide)]
    exact not_isReview_of_keys (by decide)
  unfold appendDispatchBreadcrumbs at h
  simp only at h
  split at h
  · cases h
    exact .of_map rfl
  · split at h
    · split at h
      · cases h
      split at h
      · cases h
      · exact .foldlM (fun _ _ _ => .updateItem fun _ _ => trace_appendBreadcrumb hcrumb) h
    · cases h

theorem adds_reopen {itemIds : List String} {dispatch reason : String}
    (h : reopenForRedispatch itemIds dispatch reason st items = .ok edited) :
    Adds items edited := by
  unfold reopenForRedispatch at h
  simp only at h
  split at h
  · cases h
    exact .of_map rfl
  split at h
  · cases h
  split at h
  · cases h
  · exact .foldlM (fun _ _ _ => .updateItem fun _ _ => trace_reopen) h

theorem adds_captureBug {bug : ItemSpec × BugReport} (h : captureBug st items bug = .ok edited) :
    Adds items edited := by
  unfold captureBug at h
  split at h
  · cases h
    exact .of_map rfl
  · cases hbug : bugItem bug.1 st bug.2 with
    | error e =>
      rw [hbug] at h
      cases h
    | ok item =>
      rw [hbug] at h
      cases h
      exact .append (fieldsIn_bugItem hbug)

theorem traces_logReview {dispatch verdict findings : String} (hnodup : (items.map idOf).Nodup)
    (h : updateItem itemId (logReview dispatch verdict findings st) items = .ok edited) :
    itemId ∈ items.map idOf ∧ edited.map trace = (items.map trace).map
      (extendTrace itemId (reviewCrumb dispatch verdict findings st)) := by
  induction items generalizing edited with
  | nil => cases h
  | cons item rest ih =>
    rw [List.map_cons, List.nodup_cons] at hnodup
    unfold updateItem at h
    split at h
    · rename_i hid
      cases hitem : logReview dispatch verdict findings st item with
      | error e =>
        rw [hitem] at h
        cases h
      | ok reviewed =>
        rw [hitem] at h
        cases h
        refine ⟨by rw [List.map_cons, hid]; exact List.mem_cons_self, ?_⟩
        have hreviewed : trace reviewed =
            extendTrace itemId (reviewCrumb dispatch verdict findings st) (trace item) := by
          unfold trace extendTrace
          rw [if_pos hid, idOf_congr (get?_appendBreadcrumb hitem (by decide)),
            reviewsOf_appendBreadcrumb hitem,
            if_pos (isReview_reviewCrumb dispatch verdict findings st)]
        rw [List.map_cons, List.map_cons, List.map_cons, hreviewed]
        congr 1
        rw [List.map_map]
        apply List.map_congr_left
        intro other hother
        have hne : (trace other).1 ≠ itemId := by
          intro hsame
          apply hnodup.1
          rw [hid, ← hsame]
          exact List.mem_map_of_mem hother
        exact (if_neg hne).symm
    · rename_i hid
      cases hrest : updateItem itemId (logReview dispatch verdict findings st) rest with
      | error e =>
        rw [hrest] at h
        cases h
      | ok others =>
        rw [hrest] at h
        cases h
        obtain ⟨hmem, hmap⟩ := ih hnodup.2 hrest
        refine ⟨by rw [List.map_cons]; exact List.mem_cons_of_mem _ hmem, ?_⟩
        rw [List.map_cons, List.map_cons, List.map_cons, hmap]
        congr 1
        exact (if_neg hid).symm

/-! ### Runs -/

theorem trace_fillItemForWrite (item : Mapping) : trace (fillItemForWrite item) = trace item :=
  trace_congr (get?_fillItemForWrite (by decide)) (get?_fillItemForWrite (by decide))

theorem map_fst_trace (items : List Mapping) : (items.map trace).map Prod.fst = items.map idOf := by
  rw [List.map_map]
  rfl

variable {d : Desk}

/-- The reviews in the store are those of the log. -/
def Desk.Kept (d : Desk) : Prop := Logs d.log (d.items.map trace)

theorem Logs.of_adds {log : List Logged} (h : Logs log (items.map trace)) (hadds : Adds items edited)
    (hnodup : (edited.map idOf).Nodup) : Logs log (edited.map trace) := by
  obtain ⟨new, hmap, hnew⟩ := hadds
  rw [← map_fst_trace] at hnodup
  rw [hmap] at hnodup ⊢
  refine h.append hnodup ?_
  intro t ht
  obtain ⟨item, hitem, rfl⟩ := List.mem_map.mp ht
  exact hnew item hitem

theorem logs_update {records : List Mapping} {c : TaskCommand} {log : List Logged}
    (h : Logs log (items.map trace)) (hupdate : c.update w records st items = .ok edited)
    (hnodup : (edited.map idOf).Nodup) : Logs (log ++ c.logged st) (edited.map trace) := by
  have hadds : ∀ {c : TaskCommand}, c.logged st = [] → Adds items edited →
      Logs (log ++ c.logged st) (edited.map trace) := by
    intro c hlogged hadds
    rw [hlogged, List.append_nil]
    exact h.of_adds hadds hnodup
  cases c with
  | new spec values captureKey =>
    cases hupdate
    exact hadds rfl (.append (fieldsIn_newItem spec st values captureKey))
  | done itemId force note resolution =>
    exact hadds rfl (.updateItem (fun _ _ => trace_markDone) hupdate)
  | review itemId dispatch verdict findings bugs =>
    unfold TaskCommand.update review at hupdate
    simp only at hupdate
    split at hupdate
    · cases hupdate
    split at hupdate
    · cases hupdate
    obtain ⟨reviewed, hreview, hbugs⟩ := exists_of_bind_eq_ok hupdate
    have hids := h.nodup
    rw [map_fst_trace] at hids
    obtain ⟨hin, hmap⟩ := traces_logReview hids hreview
    rw [← map_fst_trace] at hin
    have hlogs := h.review hin (reviewCrumb dispatch verdict findings st)
    rw [← hmap] at hlogs
    exact hlogs.of_adds (.foldlM (fun _ _ _ => adds_captureBug) hbugs) hnodup
  | reopen itemIds dispatch reason =>
    exact (h.of_adds (adds_reopen hupdate) hnodup).reopened itemIds
  | watch itemIds values => exact hadds rfl (adds_watch hupdate)
  | sync => exact hadds rfl (adds_sync hupdate)
  | accept itemId =>
    obtain ⟨rows, -, hupdate⟩ := exists_of_bind_eq_ok hupdate
    split at hupdate
    · cases hupdate
    · obtain ⟨reviewed, -, hupdate⟩ := exists_of_bind_eq_ok hupdate
      exact hadds rfl (.updateItem (fun _ _ => trace_markAccepted) hupdate)

theorem Desk.Kept.next (h : d.Kept) (e : DeskEvent) : (d.next w e).Kept := by
  cases e with
  | ledger records => exact h
  | command st c =>
    unfold Desk.next
    simp only
    split
    · exact h
    · rename_i published hpublish
      obtain ⟨updated, hupdate, hvalid⟩ := exists_of_bind_eq_ok hpublish
      have hlogs := logs_update h hupdate (ids_validateItems hvalid).2.1
      rw [← map_validateItems trace_fillItemForWrite hvalid] at hlogs
      exact hlogs

/-- **Every run keeps what was logged.** -/
theorem Desk.kept_after (events : List DeskEvent) : (Desk.after w events).Kept := by
  refine Machine.run_invariant (fun d e (h : d.Kept) => h.next e) ?_ events
  exact ⟨List.nodup_nil, nofun, fun _ _ => rfl⟩

/-! ### Acceptance -/

/-- The reviews of an item by dispatches that are not superseded. -/
def standingReviews (records : List Mapping) (itemId : String) (log : List Logged) : List Mapping :=
  (loggedReviews itemId log).filter fun crumb =>
    standsIn (supersededDispatchIds records) crumb.document.1

/-- The time of a review. -/
def reviewTime (w : Readings) (crumb : Mapping) : ℤ := recordSortTime w.iso crumb.document.1

/-- What an acceptance records: a clean review, the last of the latest that stand. -/
structure RestsOn (w : Readings) (d : Desk) (itemId : String) (items' : List Mapping)
    (r : Mapping) : Prop where
  recorded : ∃ item ∈ items', idOf item = itemId ∧
    item.get? "accepted_review_dispatch_id" = some (r.field "dispatch_id").1
  awaiting : ∃ item ∈ d.items, idOf item = itemId ∧
    deriveStatus w d.items (recordsOf d.records itemId)
      (shownItem (supersededDispatchIds d.records) item) = .ok "awaiting-review"
  clean : r.get? "verdict" = some (.str "clean")
  latest : ∃ before after, standingReviews d.records itemId d.log = before ++ r :: after ∧
    Latest.IsLatest (timeLe w.iso) before r after
  /-- It is as late as any time that a review has. -/
  newest : ∀ q ∈ standingReviews d.records itemId d.log, reviewTime w q ≤ reviewTime w r
  /-- It was logged since, when a review was that is no older than those before. -/
  since : ∀ older newer, d.log = older ++ newer →
    (∃ q ∈ standingReviews d.records itemId newer,
      ∀ p ∈ standingReviews d.records itemId older, reviewTime w p ≤ reviewTime w q) →
    r ∈ standingReviews d.records itemId newer

theorem standingReviews_append (records : List Mapping) (itemId : String) (log more : List Logged) :
    standingReviews records itemId (log ++ more) =
      standingReviews records itemId log ++ standingReviews records itemId more := by
  unfold standingReviews
  rw [loggedReviews_append, List.filter_append]

theorem timeLe_iff {iso : String → Option ℕ} {a b : Mapping} :
    timeLe iso a b = true ↔
      recordSortTime iso a.document.1 ≤ recordSortTime iso b.document.1 :=
  decide_eq_true_iff

/-- The last of the greatest is behind a cut if something there is no smaller than what is
before it. -/
theorem mem_of_isLatest {α : Type} {le : α → α → Bool} {older newer before after : List α} {r : α}
    (hsplit : older ++ newer = before ++ r :: after) (h : Latest.IsLatest le before r after)
    (hnew : ∃ q ∈ newer, ∀ p ∈ older, le p q = true) : r ∈ newer := by
  obtain ⟨q, hq, hle⟩ := hnew
  rcases List.append_eq_append_iff.mp hsplit with ⟨more, -, rfl⟩ | ⟨more, rfl, hmore⟩
  · exact List.mem_append_right _ List.mem_cons_self
  · cases more with
    | nil =>
      rw [List.nil_append] at hmore
      rw [← hmore]
      exact List.mem_cons_self
    | cons first more =>
      obtain ⟨rfl, rfl⟩ := List.cons.inj hmore
      have hbefore := hle r (List.mem_append_right _ List.mem_cons_self)
      rw [h.after q (List.mem_append_right _ hq)] at hbefore
      cases hbefore

theorem mem_derivedRows {records all : List Mapping} {rows : List (Mapping × String)}
    {row : Mapping × String}
    (h : (all.mapM fun item => do
      let row := shownItem (supersededDispatchIds records) item
      let status ← deriveStatus w items (recordsOf records (idOf item)) row
      return (row, status)) = .ok rows) (hrow : row ∈ rows) :
    ∃ item ∈ all, row.1 = shownItem (supersededDispatchIds records) item ∧
      deriveStatus w items (recordsOf records (idOf item)) row.1 = .ok row.2 := by
  induction all generalizing rows with
  | nil =>
    cases h
    cases hrow
  | cons item rest ih =>
    rw [List.mapM_cons] at h
    obtain ⟨first, hfirst, h⟩ := exists_of_bind_eq_ok h
    obtain ⟨more, hmore, h⟩ := exists_of_bind_eq_ok h
    cases h
    rcases List.mem_cons.mp hrow with rfl | hrest
    · obtain ⟨status, hstatus, hpair⟩ := exists_of_bind_eq_ok hfirst
      cases hpair
      exact ⟨item, List.mem_cons_self, rfl, hstatus⟩
    · obtain ⟨other, hother, hrest⟩ := ih hmore hrest
      exact ⟨other, List.mem_cons_of_mem _ hother, hrest⟩

theorem idOf_shownItem (superseded : List String) (item : Mapping) :
    idOf (shownItem superseded item) = idOf item := by
  unfold shownItem
  split
  · split
    · rfl
    · exact idOf_congr (get?_keepElements _ _ (by decide))
  · rfl

theorem exists_of_updateItem {f : Mapping → Except TaskError Mapping}
    (h : updateItem itemId f items = .ok edited) :
    ∃ item item', f item = .ok item' ∧ idOf item = itemId ∧ item' ∈ edited := by
  induction items generalizing edited with
  | nil => cases h
  | cons item rest ih =>
    unfold updateItem at h
    split at h
    · rename_i hid
      cases hitem : f item with
      | error e =>
        rw [hitem] at h
        cases h
      | ok item' =>
        rw [hitem] at h
        cases h
        exact ⟨item, item', hitem, hid, List.mem_cons_self⟩
    · cases hrest : updateItem itemId f rest with
      | error e =>
        rw [hrest] at h
        cases h
      | ok others =>
        rw [hrest] at h
        cases h
        obtain ⟨other, other', hother, hid, hmem⟩ := ih hrest
        exact ⟨other, other', hother, hid, List.mem_cons_of_mem _ hmem⟩

theorem get?_markAccepted_dispatch {dispatch findings : Document}
    (h : markAccepted dispatch findings st item = .ok item') :
    item'.get? "accepted_review_dispatch_id" = some dispatch.1 := by
  unfold markAccepted at h
  simp only at h
  rw [get?_appendAudit h (by decide)]
  split
  · rw [Mapping.get?_set_of_ne _ (by decide)]
    exact Mapping.get?_set _ _ _
  · exact Mapping.get?_set _ _ _

/-- **What acceptance rests on**: in every run, the recorded review is clean and the last of the
latest of all that were logged for the item and stand, before or after it was reopened. -/
theorem accept_latest_review (events : List DeskEvent) (itemId : String) {items' : List Mapping}
    (h : (TaskCommand.accept itemId).publish w (Desk.after w events).records st
      (Desk.after w events).items = .ok items') :
    ∃ r, RestsOn w (Desk.after w events) itemId items' r := by
  have hkept : (Desk.after w events).Kept := Desk.kept_after events
  generalize Desk.after w events = d at h hkept ⊢
  obtain ⟨updated, hupdate, hvalid⟩ := exists_of_bind_eq_ok h
  obtain ⟨rows, hrows, hupdate⟩ := exists_of_bind_eq_ok hupdate
  split at hupdate
  · cases hupdate
  rename_i row hfind
  obtain ⟨r, hreview, hupdate⟩ := exists_of_bind_eq_ok hupdate
  -- The row is that of an item with this id.
  obtain ⟨item, hitem, hrow, hstatus⟩ := mem_derivedRows hrows (List.mem_of_find?_eq_some hfind)
  have hrowid : idOf row.1 = itemId := by simpa using List.find?_some hfind
  have hid : idOf item = itemId := by
    rw [← hrowid, hrow, idOf_shownItem]
  unfold acceptableReview at hreview
  split at hreview
  · cases hreview
  split at hreview
  · cases hreview
  rename_i hawaiting
  rw [ne_eq, not_not] at hawaiting
  obtain ⟨latest, hlatest, hreview⟩ := exists_of_bind_eq_ok hreview
  split at hreview
  · cases hreview
  rename_i review
  split at hreview
  swap
  · cases hreview
  rename_i hclean
  obtain rfl := Except.ok.inj hreview
  -- Its reviews are those of the log.
  have hstanding : reviewsOf row.1 = standingReviews d.records itemId d.log := by
    have hreviews : reviewsOf item = loggedReviews (idOf item) d.log :=
      hkept.reviews (trace item) (List.mem_map_of_mem hitem)
    rw [hrow, reviewsOf_shownItem, hreviews, hid]
    rfl
  obtain ⟨-, -, hlatest⟩ := exists_of_bind_eq_ok hlatest
  have hlatest : Latest.latest (timeLe w.iso) (reviewsOf row.1) = some review :=
    Except.ok.inj hlatest
  rw [hstanding] at hlatest
  have htotal : ∀ a b, timeLe w.iso a b = true ∨ timeLe w.iso b a = true := by
    intro a b
    rw [timeLe_iff, timeLe_iff]
    exact le_total _ _
  have htrans : ∀ {a b c}, timeLe w.iso a b = true → timeLe w.iso b c = true →
      timeLe w.iso a c = true := by
    intro a b c hab hbc
    rw [timeLe_iff] at *
    exact hab.trans hbc
  obtain ⟨before, after, hsplit, hlast⟩ := Latest.isLatest_of_latest htotal htrans hlatest
  refine ⟨review, ?_, ⟨item, hitem, hid, ?_⟩, hclean, ⟨before, after, hsplit, hlast⟩, ?_, ?_⟩
  · obtain ⟨old, accepted, haccept, hold, hmem⟩ := exists_of_updateItem hupdate
    -- The writer keeps what it does not fill in.
    have hwritten := map_validateItems (g := fun item =>
      (idOf item, item.get? "accepted_review_dispatch_id")) (fun item => by
        rw [idOf_fillItemForWrite, get?_fillItemForWrite (by decide)]) hvalid
    have hin := List.mem_map_of_mem (f := fun item =>
      (idOf item, item.get? "accepted_review_dispatch_id")) hmem
    rw [← hwritten] at hin
    obtain ⟨written, hin, hsame⟩ := List.mem_map.mp hin
    obtain ⟨hsameId, hsameDispatch⟩ := Prod.mk.inj hsame
    refine ⟨written, hin, ?_, ?_⟩
    · rw [hsameId, idOf_congr (get?_markAccepted haccept (by decide)), hold]
    · rw [hsameDispatch, get?_markAccepted_dispatch haccept]
  · rw [← hrow, ← hawaiting, ← hid]
    exact hstatus
  · intro q hq
    rw [hsplit] at hq
    rcases List.mem_append.mp hq with hq | hq
    · exact timeLe_iff.mp (hlast.before q hq)
    · rcases List.mem_cons.mp hq with rfl | hq
      · exact Int.le_refl _
      · have hfalse := hlast.after q hq
        rcases htotal q review with hle | hle
        · exact timeLe_iff.mp hle
        · rw [hfalse] at hle
          cases hle
  · intro older newer hlog hnew
    rw [hlog, standingReviews_append] at hsplit
    obtain ⟨q, hq, hle⟩ := hnew
    exact mem_of_isLatest hsplit hlast ⟨q, hq, fun p hp => timeLe_iff.mpr (hle p hp)⟩

/-! ### A redispatched task -/

/-- A minute of the example's day, as `utc_now()` writes it. -/
def exampleTime (minute : ℕ) : String := "2026-01-01T00:0" ++ toString minute ++ ":00+00:00"

/-- The stamp of a minute. -/
def stampAt (minute : ℕ) : Stamp := ⟨exampleTime minute, "pm"⟩

/-- The readings of the example. -/
def exampleReadings : Readings where
  iso text := ((List.range 10).find? fun minute => exampleTime minute = text).map fun minute =>
    63902822400000000 + minute * 60000000
  classify _ := "expected_live"
  canonical v := String.ofList (dumps v)

/-- A task that is done and reviewed. -/
def reviewedRun : List DeskEvent :=
  [.command (stampAt 0) (.new ⟨"t-001", "task", "Port the parser", [], [], [], none⟩
      (fun _ => textValue "") none),
    .command (stampAt 1) (.done "t-001" false "" "done"),
    .command (stampAt 2) (.review "t-001" "review-1" "clean" "" [])]

theorem accept_latest_review_first :
    ∃ items' r, (TaskCommand.accept "t-001").publish exampleReadings
        (Desk.after exampleReadings reviewedRun).records (stampAt 3)
        (Desk.after exampleReadings reviewedRun).items = .ok items' ∧
      RestsOn exampleReadings (Desk.after exampleReadings reviewedRun) "t-001" items' r := by
  obtain ⟨items', h⟩ : ∃ items', (TaskCommand.accept "t-001").publish exampleReadings
      (Desk.after exampleReadings reviewedRun).records (stampAt 3)
      (Desk.after exampleReadings reviewedRun).items = .ok items' := by
    have hok : ((TaskCommand.accept "t-001").publish exampleReadings
      (Desk.after exampleReadings reviewedRun).records (stampAt 3)
      (Desk.after exampleReadings reviewedRun).items).isOk = true := by decide +kernel
    cases hpublish : (TaskCommand.accept "t-001").publish exampleReadings
        (Desk.after exampleReadings reviewedRun).records (stampAt 3)
        (Desk.after exampleReadings reviewedRun).items with
    | ok items' => exact ⟨items', rfl⟩
    | error e =>
      rw [hpublish] at hok
      cases hok
  obtain ⟨r, hr⟩ := accept_latest_review reviewedRun "t-001" h
  exact ⟨items', r, h, hr⟩

/-- The record of a second worker, which finished. -/
def finishedRecord : Mapping :=
  Mapping.empty.update [("dispatch_id", textValue "redo-1"), ("task_ids", textsValue ["t-001"]),
    ("state", textValue "complete"), ("ended_at", textValue (exampleTime 5))]

/-- The task is accepted, reopened and dispatched again. -/
def redispatchedRun : List DeskEvent :=
  reviewedRun ++
    [.command (stampAt 3) (.accept "t-001"),
      .command (stampAt 4) (.reopen ["t-001"] "redo-1" "failed in use"),
      .ledger [finishedRecord],
      .command (stampAt 6) .sync]

/-- **New work on an old review**: the acceptance records a review from before the task was
reopened, and from before the end of the worker that finished. -/
theorem accept_stale_review :
    ((TaskCommand.accept "t-001").publish exampleReadings
        (Desk.after exampleReadings redispatchedRun).records (stampAt 7)
        (Desk.after exampleReadings redispatchedRun).items).toOption.map
          (fun items => items.map fun item => item.get? "accepted_review_dispatch_id") =
        some [some (.str "review-1")] ∧
      (Desk.after exampleReadings redispatchedRun).log =
        [.review "t-001" (reviewCrumb "review-1" "clean" "" (stampAt 2)), .reopened ["t-001"]] ∧
      (Desk.after exampleReadings redispatchedRun).records = [finishedRecord] ∧
      dispatchStatusFromRecord exampleReadings.classify true finishedRecord.document.1 =
        some "worker-finished" ∧
      reviewTime exampleReadings (reviewCrumb "review-1" "clean" "" (stampAt 2)) <
        reviewTime exampleReadings finishedRecord := by
  decide +kernel

end GoalFlight.Tasks
