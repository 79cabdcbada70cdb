import GoalFlight.Tasks.Imported

/-!
# Importing a file again

The repetition of an import reads the items that the import made.  It has the errors of the
import, with each reference standing for the same key as before, and compares each record with
the item of its key.
-/

namespace GoalFlight.Tasks

open Json Utf8

variable {ref : String} {r : SidecarRecord} {keyOf : String → String}

/-! ### When there are no errors -/

theorem sortTexts_eq_nil_iff {texts : List String} : sortTexts texts = [] ↔ texts = [] := by
  rw [← List.length_eq_zero_iff, ← List.length_eq_zero_iff, (sortTexts_perm texts).length_eq]

theorem sortTexts_eraseDups_eq_nil_iff {texts : List String} :
    sortTexts texts.eraseDups = [] ↔ texts = [] := by
  rw [sortTexts_eq_nil_iff, List.eq_nil_iff_forall_not_mem, List.eq_nil_iff_forall_not_mem]
  exact forall_congr' fun text => not_congr List.mem_eraseDups

variable {records : List SidecarRecord} {items : List Mapping}

theorem unknownRefs_eq_nil_iff :
    unknownRefs records items = [] ↔
      ∀ r ∈ records, ∀ ref ∈ r.blockedBy, ref ∈ draftIds records ∨ ref ∈ items.map idOf := by
  unfold unknownRefs
  rw [sortTexts_eraseDups_eq_nil_iff, List.filter_eq_nil_iff]
  constructor
  · intro h r hr ref href
    have hnot := h ref (List.mem_flatMap.mpr ⟨r, hr, href⟩)
    rw [decide_eq_true_eq, not_and_or, not_not, not_not] at hnot
    exact hnot
  · intro h ref hmem
    obtain ⟨r, hr, href⟩ := List.mem_flatMap.mp hmem
    rw [decide_eq_true_eq, not_and_or, not_not, not_not]
    exact h r hr ref href

theorem selfRefs_eq_nil_iff :
    selfRefs keyOf records = [] ↔
      ∀ r ∈ records, ∀ ref ∈ r.blockedBy, keyOf ref ≠ r.importKey := by
  unfold selfRefs
  rw [sortTexts_eraseDups_eq_nil_iff, List.map_eq_nil_iff, List.filter_eq_nil_iff]
  refine forall₂_congr fun r _ => ?_
  rw [Bool.not_eq_true, List.any_eq_false]
  refine forall₂_congr fun ref _ => ?_
  rw [decide_eq_true_eq]

theorem recordCollisions_eq_nil_iff :
    recordCollisions keyOf records = [] ↔
      ∀ r ∈ records, ∀ other ∈ records, other.importKey = r.importKey →
        other.signature keyOf = r.signature keyOf := by
  have hgroup (group : List SidecarRecord) : groupCollisions keyOf group = [] ↔
      ∀ r ∈ group, ∀ other ∈ group, other.signature keyOf = r.signature keyOf := by
    cases group with
    | nil => exact ⟨nofun, fun _ => rfl⟩
    | cons first others =>
      unfold groupCollisions
      rw [List.map_eq_nil_iff, List.filter_eq_nil_iff]
      constructor
      · intro h
        have hfirst : ∀ r ∈ first :: others, r.signature keyOf = first.signature keyOf := by
          refine List.forall_mem_cons.mpr ⟨rfl, fun r hr => ?_⟩
          have hsame := h r hr
          rw [decide_eq_true_eq, not_not] at hsame
          exact hsame
        exact fun r hr other hother => (hfirst other hother).trans (hfirst r hr).symm
      · intro h r hr
        rw [decide_eq_true_eq, not_not]
        exact h first List.mem_cons_self r (List.mem_cons_of_mem _ hr)
  unfold recordCollisions
  rw [List.flatMap_eq_nil_iff]
  constructor
  · intro h r hr other hother hkey
    have hone := h r.importKey (List.mem_eraseDups.mpr (List.mem_map.mpr ⟨r, hr, rfl⟩))
    exact (hgroup _).mp hone r (List.mem_filter.mpr ⟨hr, decide_eq_true rfl⟩) other
      (List.mem_filter.mpr ⟨hother, decide_eq_true hkey⟩)
  · intro h key _
    rw [hgroup]
    intro r hr other hother
    obtain ⟨hr, hkey⟩ := List.mem_filter.mp hr
    obtain ⟨hother, hotherKey⟩ := List.mem_filter.mp hother
    exact h r hr other hother
      ((of_decide_eq_true hotherKey).trans (of_decide_eq_true hkey).symm)

theorem mapM_reduceOption_eq_nil_iff {ε α β : Type} {f : α → Except ε (Option β)} {xs : List α} :
    (∃ found, xs.mapM f = .ok found ∧ found.reduceOption = []) ↔ ∀ x ∈ xs, f x = .ok none := by
  induction xs with
  | nil => exact ⟨nofun, fun _ => ⟨[], rfl, rfl⟩⟩
  | cons x rest ih =>
    rw [List.forall_mem_cons, ← ih, List.mapM_cons]
    constructor
    · rintro ⟨found, hfound, hnone⟩
      obtain ⟨first, hfirst, hfound⟩ := exists_of_bind_eq_ok hfound
      obtain ⟨more, hmore, hfound⟩ := exists_of_bind_eq_ok hfound
      cases hfound
      cases first with
      | none => exact ⟨hfirst, more, hmore, hnone⟩
      | some text => cases hnone
    · rintro ⟨hfirst, more, hmore, hnone⟩
      rw [hfirst, hmore]
      exact ⟨none :: more, rfl, hnone⟩

/-- **A file without errors.** -/
theorem importErrors_eq_nil_iff
    {readErrors : List String} :
    importErrors records items readErrors = .ok [] ↔
      readErrors = [] ∧
      (∀ r ∈ records, ∀ ref ∈ r.blockedBy, ref ∈ draftIds records ∨ ref ∈ items.map idOf) ∧
      (∀ r ∈ records, ∀ ref ∈ r.blockedBy, keyIn (blockerKeys records items) ref ≠ r.importKey) ∧
      cycleErrors records = [] ∧
      (∀ r ∈ records, ∀ other ∈ records, other.importKey = r.importKey →
        other.signature (keyIn (blockerKeys records items)) =
          r.signature (keyIn (blockerKeys records items))) ∧
      ∀ r ∈ records,
        collisionOf (keyIn (blockerKeys records items)) (existingByKey items) r = .ok none := by
  rw [← unknownRefs_eq_nil_iff, ← selfRefs_eq_nil_iff, ← recordCollisions_eq_nil_iff,
    ← mapM_reduceOption_eq_nil_iff]
  unfold importErrors
  constructor
  · intro h
    obtain ⟨collisions, hcollisions, h⟩ := exists_of_bind_eq_ok h
    have herrors := Except.ok.inj h
    simp only [List.append_eq_nil_iff, ite_eq_left_iff, List.cons_ne_nil, imp_false,
      not_not] at herrors
    obtain ⟨⟨⟨⟨⟨hread, hunknown⟩, hself⟩, hcycle⟩, hrecords⟩, hitems⟩ := herrors
    exact ⟨hread, hunknown, hself, hcycle, hrecords, collisions, hcollisions, hitems⟩
  · rintro ⟨hread, hunknown, hself, hcycle, hrecords, collisions, hcollisions, hitems⟩
    simp only
    rw [hcollisions, hread, hunknown, hself, hcycle, hrecords]
    show Except.ok (([] ++ [] ++ [] ++ [] ++ [] ++ collisions.reduceOption : List String)) = _
    rw [hitems]
    rfl

theorem checkLive_eq_ok_iff {byKey : List (String × Mapping)} :
    checkLive keyOf byKey records = .ok () ↔ ∀ r ∈ records, collisionOf keyOf byKey r = .ok none := by
  induction records with
  | nil => exact ⟨nofun, fun _ => rfl⟩
  | cons r rest ih =>
    rw [List.forall_mem_cons, checkLive]
    constructor
    · intro h
      obtain ⟨collision, hcollision, h⟩ := exists_of_bind_eq_ok h
      cases collision with
      | none => exact ⟨hcollision, ih.mp h⟩
      | some message => cases h
    · rintro ⟨hcollision, h⟩
      rw [hcollision]
      exact ih.mpr h

/-! ### Keys of items -/

/-- **What every writer of a store keeps**: ids are minted, so none is that of a draft, and
content keys are written by imports alone, each once. -/
structure TidyItems (items : List Mapping) : Prop where
  ids : ∀ item ∈ items, ¬draftStart <+: (idOf item).toList
  keys : ∀ item ∈ items, ∀ key, importKey? item = some key → importStart <+: key.toList
  once : ((liveKeys items).map Prod.fst).Nodup

theorem mem_existingKeyById {id key : String} :
    (id, key) ∈ existingKeyById items ↔
      ∃ item ∈ items, importKey? item = some key ∧ idOf item = id := by
  unfold existingKeyById
  rw [List.mem_filterMap]
  refine exists_congr fun item => and_congr_right fun _ => ?_
  rw [Option.map_eq_some_iff]
  constructor
  · rintro ⟨other, hother, heq⟩
    obtain ⟨rfl, rfl⟩ := Prod.mk.inj heq
    exact ⟨hother, rfl⟩
  · rintro ⟨hkey, rfl⟩
    exact ⟨key, hkey, rfl⟩

theorem mem_liveKeys {id key : String} :
    (key, id) ∈ liveKeys items ↔ (id, key) ∈ existingKeyById items := by
  rw [mem_existingKeyById]
  unfold liveKeys
  rw [List.mem_filterMap]
  refine exists_congr fun item => and_congr_right fun _ => ?_
  rw [Option.map_eq_some_iff]
  constructor
  · rintro ⟨other, hother, heq⟩
    obtain ⟨rfl, rfl⟩ := Prod.mk.inj heq
    exact ⟨hother, rfl⟩
  · rintro ⟨hkey, rfl⟩
    exact ⟨key, hkey, rfl⟩

theorem keys_existingByKey (items : List Mapping) :
    (existingByKey items).map Prod.fst = (liveKeys items).map Prod.fst := by
  unfold existingByKey liveKeys
  rw [List.map_filterMap, List.map_filterMap]
  refine List.filterMap_congr fun item _ => ?_
  cases importKey? item <;> rfl

theorem nodup_existingKeyById (h : (items.map idOf).Nodup) :
    ((existingKeyById items).map Prod.fst).Nodup := by
  refine h.sublist ?_
  unfold existingKeyById
  rw [List.map_filterMap]
  induction items with
  | nil => exact List.Sublist.slnil
  | cons item rest ih =>
    have hrest := ih (List.nodup_cons.mp h).2
    rw [List.filterMap_cons, List.map_cons]
    cases importKey? item with
    | none => exact hrest.cons _
    | some key => exact hrest.cons_cons _

theorem liveBlockerKeys_eq (h : TidyItems items)
    (records : List SidecarRecord) : liveBlockerKeys records items = blockerKeys records items := by
  have hitems : Dictionary.items (existingByKey items) = existingByKey items := by
    apply Dictionary.items_of_nodup
    rw [keys_existingByKey]
    exact h.once
  unfold liveBlockerKeys blockerKeys
  rw [hitems]
  congr 1
  unfold existingByKey existingKeyById
  rw [List.map_filterMap]
  refine List.filterMap_congr fun item _ => ?_
  cases importKey? item <;> rfl

/-! ### The items after an import -/

/-- The items that an import leaves. -/
def updatedItems (c : ImportCall) (items : List Mapping) (records : List SidecarRecord)
    (allocated : List String) : List Mapping :=
  items ++ List.zipWith
    (recordItem c (idMapping (keyToId items (createdOf items records) allocated) records))
    (createdOf items records) allocated

/-- **What an import has checked** by the time that it makes its items. -/
structure Accepted (e : ImportEnv) (items : List Mapping) (records : List SidecarRecord)
    (allocated : List String) : Prop where
  wellRead : ∀ r ∈ records, r.WellRead e.lower
  tidy : TidyItems items
  nodup : (items.map idOf).Nodup
  present : ∀ item ∈ items, idOf item ≠ ""
  refs : ∀ r ∈ records, ∀ ref ∈ r.blockedBy, ref ∈ draftIds records ∨ ref ∈ items.map idOf
  length : allocated.length = (createdOf items records).length
  distinct : allocated.Nodup
  minted : ∀ id ∈ allocated, (∃ f n, id = mintedId f n) ∧ id ∉ items.map idOf
  live : ∀ r ∈ records,
    collisionOf (keyIn (blockerKeys records items)) (existingByKey items) r = .ok none

theorem SidecarRecord.WellRead.importStart {lower : List Char → List Char}
    (h : r.WellRead lower) : importStart <+: r.importKey.toList := by
  rw [h.key]
  unfold importContentKey
  rw [String.toList_ofList]
  exact List.prefix_append _ _

theorem SidecarRecord.WellRead.importKey_ne {lower : List Char → List Char}
    (h : r.WellRead lower) : r.importKey ≠ "" := by
  intro hempty
  have hstart := h.importStart
  rw [hempty] at hstart
  exact absurd hstart (by decide)

theorem not_importStart_mintedId (f : Family) (n : ℕ) :
    ¬GoalFlight.Tasks.importStart <+: (mintedId f n).toList := by
  unfold mintedId
  rw [String.toList_ofList]
  rintro ⟨rest, hrest⟩
  cases f <;> simp [importStart, Family.idPrefix, Family.name] at hrest

theorem keyIn_idMapping (records : List SidecarRecord) (keys : List (String × String)) (ref : String) :
    keyIn (idMapping keys records) ref =
      ((Dictionary.get? (draftKeyById records) ref).map fun key =>
        (Dictionary.get? keys key).getD "").getD ref := by
  have hmapping : idMapping keys records = (draftKeyById records).map fun entry =>
      (entry.1, (Dictionary.get? keys entry.2).getD "") := by
    unfold idMapping draftKeyById
    rw [List.map_map]
    rfl
  unfold keyIn
  rw [hmapping, Dictionary.get?_map fun key => (Dictionary.get? keys key).getD ""]

theorem keyIn_blockerKeys (records : List SidecarRecord) (others : List Mapping) (ref : String) :
    keyIn (blockerKeys records others) ref = ((Dictionary.get? (draftKeyById records) ref).or
      (Dictionary.get? (existingKeyById others) ref)).getD ref := by
  unfold keyIn blockerKeys
  rw [Dictionary.get?_append]

theorem exists_of_draftKeyById {key : String}
    (h : Dictionary.get? (draftKeyById records) ref = some key) :
    ∃ r ∈ records, r.importKey = key := by
  obtain ⟨r, hr, heq⟩ := List.mem_map.mp (Dictionary.mem_of_get? h)
  exact ⟨r, hr, (Prod.mk.inj heq).2⟩

theorem collisionOf_eq_none_congr {byKey : List (String × Mapping)} {other : SidecarRecord}
    (hkey : other.importKey = r.importKey)
    (hsignature : other.signature keyOf = r.signature keyOf) :
    collisionOf keyOf byKey other = .ok none ↔ collisionOf keyOf byKey r = .ok none := by
  unfold collisionOf
  rw [hkey, hsignature]
  cases Dictionary.get? byKey r.importKey with
  | none => exact Iff.rfl
  | some item =>
    simp only
    cases itemSignature? keyOf item with
    | none => exact iff_of_false (nofun) (nofun)
    | some signature =>
      simp only
      split
      · exact Iff.rfl
      · exact iff_of_false (nofun) (nofun)

namespace Accepted

variable {e : ImportEnv} {items : List Mapping} {records : List SidecarRecord}
  {allocated : List String}

section

variable (h : Accepted e items records allocated)
include h

theorem importKey_ne :
    ∀ r ∈ createdOf items records, r.importKey ≠ "" := by
  intro r hr
  have hmem := ((createdRecords_spec _ records).2.1 r hr).1
  exact (h.wellRead r hmem).importKey_ne

theorem liveKeys_updatedItems (c : ImportCall) :
    liveKeys (updatedItems c items records allocated) =
      keyToId items (createdOf items records) allocated := by
  unfold updatedItems keyToId
  conv_lhs => unfold liveKeys
  rw [List.filterMap_append,
    filterMap_zipWith_recordItem c _ (fun item key => (key, idOf item)) h.importKey_ne]
  congr 1
  simp only [idOf_recordItem]
  rw [List.zip, List.zipWith_map_left]

theorem existingKeyById_updatedItems (c : ImportCall) :
    existingKeyById (updatedItems c items records allocated) = existingKeyById items ++
      allocated.zip ((createdOf items records).map SidecarRecord.importKey) := by
  unfold updatedItems
  conv_lhs => unfold existingKeyById
  rw [List.filterMap_append,
    filterMap_zipWith_recordItem c _ (fun item key => (idOf item, key)) h.importKey_ne]
  congr 1
  simp only [idOf_recordItem]
  rw [List.zip, List.zipWith_map_right, List.zipWith_comm]

theorem existingByKey_updatedItems (c : ImportCall) :
    existingByKey (updatedItems c items records allocated) = existingByKey items ++
      ((createdOf items records).zip allocated).map fun entry => (entry.1.importKey,
        recordItem c (idMapping (keyToId items (createdOf items records) allocated) records)
          entry.1 entry.2) := by
  unfold updatedItems
  conv_lhs => unfold existingByKey
  rw [List.filterMap_append,
    filterMap_zipWith_recordItem c _ (fun item key => (key, item)) h.importKey_ne, List.zip,
    List.map_zipWith]
  rfl

theorem exists_zip (hr : r ∈ createdOf items records) :
    ∃ id, (r, id) ∈ (createdOf items records).zip allocated := by
  have hle : (createdOf items records).length ≤ allocated.length := Nat.le_of_eq h.length.symm
  rw [← List.map_fst_zip hle] at hr
  obtain ⟨⟨created, id⟩, hmem, rfl⟩ := List.mem_map.mp hr
  exact ⟨id, hmem⟩

end

theorem ids_updatedItems (c : ImportCall) (h : Accepted e items records allocated) :
    (updatedItems c items records allocated).map idOf = items.map idOf ++ allocated := by
  unfold updatedItems
  rw [List.map_append, List.map_zipWith]
  simp only [idOf_recordItem]
  congr 1
  have hle : allocated.length ≤ (createdOf items records).length := Nat.le_of_eq h.length
  have hsnd : List.zipWith (fun _ id => id) (createdOf items records) allocated =
      ((createdOf items records).zip allocated).map Prod.snd := by
    rw [List.zip, List.map_zipWith]
  exact hsnd.trans (List.map_snd_zip hle)

section

variable (h : Accepted e items records allocated)
include h

theorem nodup_updatedItems (c : ImportCall) :
    ((updatedItems c items records allocated).map idOf).Nodup := by
  rw [ids_updatedItems c h, List.nodup_append]
  refine ⟨h.nodup, h.distinct, ?_⟩
  rintro id hid other hother rfl
  exact (h.minted id hother).2 hid

theorem keys_keyToId :
    (keyToId items (createdOf items records) allocated).map Prod.fst =
      (liveKeys items).map Prod.fst ++ (createdOf items records).map SidecarRecord.importKey := by
  unfold keyToId
  rw [List.map_append, List.map_fst_zip]
  rw [List.length_map, h.length]

theorem nodup_keyToId :
    ((keyToId items (createdOf items records) allocated).map Prod.fst).Nodup := by
  obtain ⟨hnodup, hcreated, -⟩ := createdRecords_spec ((liveKeys items).map Prod.fst) records
  rw [h.keys_keyToId, List.nodup_append]
  refine ⟨h.tidy.once, hnodup, ?_⟩
  rintro key hkey other hother rfl
  obtain ⟨r, hr, rfl⟩ := List.mem_map.mp hother
  exact (hcreated r hr).2 hkey

theorem mem_keyToId (hr : r ∈ records) :
    r.importKey ∈ (keyToId items (createdOf items records) allocated).map Prod.fst := by
  rw [h.keys_keyToId, List.mem_append]
  by_cases hknown : r.importKey ∈ (liveKeys items).map Prod.fst
  · exact .inl hknown
  · exact .inr ((createdRecords_spec _ records).2.2 r hr hknown)

/-- **Tidy items stay tidy.** -/
theorem tidy_updatedItems (c : ImportCall) :
    TidyItems (updatedItems c items records allocated) where
  ids := by
    intro item hitem
    have hid := List.mem_map.mpr ⟨item, hitem, (rfl : idOf item = idOf item)⟩
    rw [ids_updatedItems c h, List.mem_append] at hid
    rcases hid with hold | hnew
    · obtain ⟨other, hother, heq⟩ := List.mem_map.mp hold
      exact heq ▸ h.tidy.ids other hother
    · obtain ⟨⟨f, n, heq⟩, -⟩ := h.minted _ hnew
      rw [heq]
      exact not_draftStart_mintedId f n
  keys := by
    intro item hitem key hkey
    have hmem := mem_existingKeyById.mpr ⟨item, hitem, hkey, rfl⟩
    rw [h.existingKeyById_updatedItems, List.mem_append] at hmem
    rcases hmem with hold | hnew
    · obtain ⟨other, hother, hotherKey, -⟩ := mem_existingKeyById.mp hold
      exact h.tidy.keys other hother key hotherKey
    · obtain ⟨r, hr, rfl⟩ := List.mem_map.mp (List.of_mem_zip hnew).2
      exact (h.wellRead r ((createdRecords_spec _ records).2.1 r hr).1).importStart
  once := by
    rw [h.liveKeys_updatedItems]
    exact h.nodup_keyToId

/-! ### References after the import -/

theorem get?_draftKeyById_of_not_draft {id : String} (hid : ¬draftStart <+: id.toList) :
    Dictionary.get? (draftKeyById records) id = none := by
  rw [Dictionary.get?_eq_none_iff]
  intro hmem
  obtain ⟨entry, hentry, rfl⟩ := List.mem_map.mp hmem
  obtain ⟨r, hr, rfl⟩ := List.mem_map.mp hentry
  exact hid (h.wellRead r hr).draft

theorem exists_id (c : ImportCall) (hr : r ∈ records) :
    ∃ id, Dictionary.get? (keyToId items (createdOf items records) allocated) r.importKey = some id ∧
      (id, r.importKey) ∈ existingKeyById (updatedItems c items records allocated) := by
  obtain ⟨id, hid⟩ := Option.isSome_iff_exists.mp
    (Dictionary.isSome_get?_iff.mpr (h.mem_keyToId hr))
  refine ⟨id, hid, ?_⟩
  rw [← mem_liveKeys, h.liveKeys_updatedItems]
  exact Dictionary.mem_of_get? hid

/-- **A reference stands for the same key** as before the import. -/
theorem keyIn_blockerKeys_updatedItems (c : ImportCall) (hr : r ∈ records)
    (href : ref ∈ r.blockedBy) :
    keyIn (blockerKeys records (updatedItems c items records allocated)) ref =
      keyIn (blockerKeys records items) ref := by
  rw [keyIn_blockerKeys, keyIn_blockerKeys]
  cases hdraft : Dictionary.get? (draftKeyById records) ref with
  | some key => rfl
  | none =>
    have hold : ref ∈ items.map idOf := by
      refine (h.refs r hr ref href).resolve_left fun hmem => ?_
      refine Dictionary.get?_eq_none_iff.mp hdraft ?_
      unfold draftKeyById
      rw [List.map_map]
      exact hmem
    have hnew : Dictionary.get? (allocated.zip
        ((createdOf items records).map SidecarRecord.importKey)) ref = none := by
      rw [Dictionary.get?_eq_none_iff]
      intro hmem
      obtain ⟨entry, hentry, rfl⟩ := List.mem_map.mp hmem
      exact (h.minted _ (List.of_mem_zip hentry).1).2 hold
    rw [h.existingKeyById_updatedItems, Dictionary.get?_append, hnew]
    rfl

/-- **What a reference resolved to** stands for the key of the reference. -/
theorem keyIn_resolved (c : ImportCall) (hr : r ∈ records) (href : ref ∈ r.blockedBy) :
    keyIn (blockerKeys records (updatedItems c items records allocated))
        (keyIn (idMapping (keyToId items (createdOf items records) allocated) records) ref) =
      keyIn (blockerKeys records items) ref := by
  rw [keyIn_idMapping]
  cases hdraft : Dictionary.get? (draftKeyById records) ref with
  | none => exact h.keyIn_blockerKeys_updatedItems c hr href
  | some key =>
    obtain ⟨other, hother, rfl⟩ := exists_of_draftKeyById hdraft
    obtain ⟨id, hid, hmem⟩ := h.exists_id c hother
    obtain ⟨item, hitem, -, rfl⟩ := mem_existingKeyById.mp hmem
    have hnone := h.get?_draftKeyById_of_not_draft ((h.tidy_updatedItems c).ids item hitem)
    rw [Option.map_some, hid, Option.getD_some, Option.getD_some, keyIn_blockerKeys, hnone,
      keyIn_blockerKeys, hdraft,
      (Dictionary.get?_eq_some_iff (nodup_existingKeyById (h.nodup_updatedItems c))).mpr hmem]
    rfl

theorem resolved_ne_empty (c : ImportCall) (hr : r ∈ records) (href : ref ∈ r.blockedBy) :
    ref ≠ "" ∧
      keyIn (idMapping (keyToId items (createdOf items records) allocated) records) ref ≠ "" := by
  have hdraftKeys : draftIds records = (draftKeyById records).map Prod.fst := by
    unfold draftIds draftKeyById
    rw [List.map_map]
    rfl
  have hpresent : ∀ item ∈ updatedItems c items records allocated, idOf item ≠ "" := by
    intro item hitem
    have hid := List.mem_map.mpr ⟨item, hitem, (rfl : idOf item = idOf item)⟩
    rw [ids_updatedItems c h, List.mem_append] at hid
    rcases hid with hold | hnew
    · obtain ⟨other, hother, heq⟩ := List.mem_map.mp hold
      exact heq ▸ h.present other hother
    · obtain ⟨⟨f, n, heq⟩, -⟩ := h.minted _ hnew
      exact heq ▸ mintedId_ne_empty f n
  have hne : ref ≠ "" := by
    rcases h.refs r hr ref href with hdraft | hold
    · obtain ⟨other, hother, rfl⟩ := List.mem_map.mp hdraft
      intro hempty
      have hstart := (h.wellRead other hother).draft
      rw [hempty] at hstart
      exact absurd hstart (by decide)
    · obtain ⟨item, hitem, rfl⟩ := List.mem_map.mp hold
      exact h.present item hitem
  refine ⟨hne, ?_⟩
  rw [keyIn_idMapping]
  cases hdraft : Dictionary.get? (draftKeyById records) ref with
  | none => exact hne
  | some key =>
    obtain ⟨other, hother, rfl⟩ := exists_of_draftKeyById hdraft
    obtain ⟨id, hid, hmem⟩ := h.exists_id c hother
    obtain ⟨item, hitem, -, rfl⟩ := mem_existingKeyById.mp hmem
    rw [Option.map_some, hid]
    exact hpresent item hitem

theorem signature_updatedItems (c : ImportCall) (hr : r ∈ records) :
    r.signature (keyIn (blockerKeys records (updatedItems c items records allocated))) =
      r.signature (keyIn (blockerKeys records items)) := by
  unfold SidecarRecord.signature contentSignature
  congr 2
  refine List.map_congr_left fun ref href => ?_
  exact h.keyIn_blockerKeys_updatedItems c hr (mem_dedupeTexts.mp href).1

/-! ### Collisions after the import -/

/-- A blocker of an item that is mapped like the blockers of a record: it stands for the same key
as before, as no record has a minted id for the key of a reference. -/
theorem keyIn_of_mem_signature (c : ImportCall) (hr : r ∈ records) {blocker : String}
    (hblocker : keyIn (blockerKeys records items) blocker ∈
      r.blockedBy.map (keyIn (blockerKeys records items))) :
    keyIn (blockerKeys records (updatedItems c items records allocated)) blocker =
      keyIn (blockerKeys records items) blocker := by
  by_cases hnew : blocker ∈ allocated
  · -- The blocker would be an id that was free, and a key.
    exfalso
    obtain ⟨⟨f, n, rfl⟩, hfree⟩ := h.minted blocker hnew
    have hself : keyIn (blockerKeys records items) (mintedId f n) = mintedId f n := by
      have hnone : Dictionary.get? (existingKeyById items) (mintedId f n) = none := by
        rw [Dictionary.get?_eq_none_iff]
        intro hmem
        obtain ⟨⟨id, key⟩, hentry, heq⟩ := List.mem_map.mp hmem
        obtain ⟨item, hitem, -, hid⟩ := mem_existingKeyById.mp hentry
        exact hfree (List.mem_map.mpr ⟨item, hitem, hid.trans heq⟩)
      rw [keyIn_blockerKeys, h.get?_draftKeyById_of_not_draft (not_draftStart_mintedId f n), hnone]
      rfl
    rw [hself] at hblocker
    obtain ⟨ref, href, heq⟩ := List.mem_map.mp hblocker
    rw [keyIn_blockerKeys] at heq
    cases hdraft : Dictionary.get? (draftKeyById records) ref with
    | some key =>
      rw [hdraft] at heq
      obtain rfl : key = mintedId f n := heq
      obtain ⟨other, hother, hkey⟩ := exists_of_draftKeyById hdraft
      exact not_importStart_mintedId f n (hkey ▸ (h.wellRead other hother).importStart)
    | none =>
      rw [hdraft, Option.none_or] at heq
      cases hold : Dictionary.get? (existingKeyById items) ref with
      | some key =>
        rw [hold] at heq
        obtain rfl : key = mintedId f n := heq
        obtain ⟨item, hitem, hkey, -⟩ :=
          mem_existingKeyById.mp (Dictionary.mem_of_get? hold)
        exact not_importStart_mintedId f n (h.tidy.keys item hitem _ hkey)
      | none =>
        rw [hold] at heq
        obtain rfl : ref = mintedId f n := heq
        rcases h.refs r hr _ href with hmem | hmem
        · obtain ⟨other, hother, hid⟩ := List.mem_map.mp hmem
          exact not_draftStart_mintedId f n (hid ▸ (h.wellRead other hother).draft)
        · exact hfree hmem
  · have hnone : Dictionary.get? (allocated.zip
        ((createdOf items records).map SidecarRecord.importKey)) blocker = none := by
      rw [Dictionary.get?_eq_none_iff]
      intro hmem
      obtain ⟨entry, hentry, rfl⟩ := List.mem_map.mp hmem
      exact hnew (List.of_mem_zip hentry).1
    rw [keyIn_blockerKeys, keyIn_blockerKeys, h.existingKeyById_updatedItems,
      Dictionary.get?_append, hnone]
    rfl

/-- **An item that was there** does not collide either. -/
theorem collisionOf_old (c : ImportCall) (hr : r ∈ records)
    (hold : r.importKey ∈ (liveKeys items).map Prod.fst) :
    collisionOf (keyIn (blockerKeys records (updatedItems c items records allocated)))
      (existingByKey (updatedItems c items records allocated)) r = .ok none := by
  have hitem : Dictionary.get? (existingByKey (updatedItems c items records allocated))
      r.importKey = Dictionary.get? (existingByKey items) r.importKey := by
    rw [h.existingByKey_updatedItems, Dictionary.get?_append]
    have hnone : Dictionary.get? (((createdOf items records).zip allocated).map fun entry =>
        (entry.1.importKey, recordItem c
          (idMapping (keyToId items (createdOf items records) allocated) records) entry.1 entry.2))
        r.importKey = none := by
      rw [Dictionary.get?_eq_none_iff, List.map_map]
      intro hmem
      obtain ⟨entry, hentry, heq⟩ := List.mem_map.mp hmem
      have hfresh := ((createdRecords_spec _ records).2.1 entry.1 (List.of_mem_zip hentry).1).2
      have hkey : entry.1.importKey = r.importKey := heq
      exact hfresh (hkey ▸ hold)
    rw [hnone]
    rfl
  have hlive := h.live r hr
  unfold collisionOf at hlive ⊢
  rw [hitem]
  cases hget : Dictionary.get? (existingByKey items) r.importKey with
  | none => rfl
  | some item =>
    rw [hget] at hlive
    simp only at hlive ⊢
    cases hsig : itemSignature? (keyIn (blockerKeys records items)) item with
    | none =>
      rw [hsig] at hlive
      cases hlive
    | some signature =>
      rw [hsig] at hlive
      simp only at hlive
      have hsame : r.signature (keyIn (blockerKeys records items)) = signature := by
        by_contra hne
        rw [if_neg hne] at hlive
        cases hlive
      have hsig' : itemSignature?
          (keyIn (blockerKeys records (updatedItems c items records allocated))) item =
            some signature := by
        unfold itemSignature? at hsig ⊢
        obtain ⟨tags, htags, hsig⟩ := Option.bind_eq_some_iff.mp hsig
        obtain ⟨blockedBy, hblocked, hsig⟩ := Option.bind_eq_some_iff.mp hsig
        obtain ⟨links, hlinks, hsig⟩ := Option.bind_eq_some_iff.mp hsig
        cases hsig
        rw [htags, hblocked, hlinks]
        have hmapped : blockedBy.map
            (keyIn (blockerKeys records (updatedItems c items records allocated))) =
              blockedBy.map (keyIn (blockerKeys records items)) := by
          refine List.map_congr_left fun blocker hblocker => ?_
          refine h.keyIn_of_mem_signature c hr ?_
          have hperm := sortTexts_eq_iff.mp (congrArg Signature.blockers hsame)
          obtain ⟨ref, href, heq⟩ :=
            List.mem_map.mp (hperm.mem_iff.mpr (List.mem_map_of_mem hblocker))
          exact List.mem_map.mpr ⟨ref, (mem_dedupeTexts.mp href).1, heq⟩
        show some (contentSignature _ _ tags blockedBy links) = _
        unfold contentSignature
        rw [hmapped]
      rw [hsig', h.signature_updatedItems c hr, hsame]
      exact congrArg Except.ok (if_pos rfl)

/-- **An item that the import made** does not collide with its record exactly when no two
references of the record became one id. -/
theorem collisionOf_created_iff (c : ImportCall) (hr : r ∈ createdOf items records) :
    collisionOf (keyIn (blockerKeys records (updatedItems c items records allocated)))
        (existingByKey (updatedItems c items records allocated)) r = .ok none ↔
      ∀ ref ∈ r.blockedBy, ∀ other ∈ r.blockedBy,
        keyIn (idMapping (keyToId items (createdOf items records) allocated) records) ref =
          keyIn (idMapping (keyToId items (createdOf items records) allocated) records) other →
        ref = other := by
  have hrecord : r ∈ records := ((createdRecords_spec _ records).2.1 r hr).1
  obtain ⟨id, hzip⟩ := h.exists_zip hr
  have hmem : (r.importKey, recordItem c
      (idMapping (keyToId items (createdOf items records) allocated) records) r id) ∈
        existingByKey (updatedItems c items records allocated) := by
    rw [h.existingByKey_updatedItems, List.mem_append]
    exact .inr (List.mem_map.mpr ⟨_, hzip, rfl⟩)
  have hnodup : ((existingByKey (updatedItems c items records allocated)).map Prod.fst).Nodup := by
    rw [keys_existingByKey]
    exact (h.tidy_updatedItems c).once
  unfold collisionOf
  rw [(Dictionary.get?_eq_some_iff hnodup).mpr hmem]
  simp only
  rw [itemSignature?_recordItem]
  simp only
  rw [← sortTexts_dedupe_map_iff (fun ref href => h.resolved_ne_empty c hrecord href)
    (fun ref href => h.keyIn_resolved c hrecord href), Except.ok.injEq, ite_eq_left_iff,
    h.signature_updatedItems c hrecord]
  constructor
  · intro hsame
    have heq := not_imp_comm.mp hsame (by simp)
    exact congrArg Signature.blockers heq
  · intro hblockers
    refine fun hne => absurd ?_ hne
    unfold SidecarRecord.signature contentSignature
    rw [hblockers]

end

end Accepted

/-! ### The condition -/

/-- What a reference resolves to: the id of an item that is there, or the key of a new one. -/
def target (items : List Mapping) (records : List SidecarRecord) (ref : String) : String ⊕ String :=
  match Dictionary.get? (draftKeyById records) ref with
  | none => .inl ref
  | some key =>
    match Dictionary.get? (liveKeys items) key with
    | some id => .inl id
    | none => .inr key

/-- No created record has two references that resolve to one item. -/
def DistinctTargets (items : List Mapping) (records : List SidecarRecord) : Prop :=
  ∀ r ∈ createdOf items records, ∀ ref ∈ r.blockedBy, ∀ other ∈ r.blockedBy,
    target items records ref = target items records other → ref = other

namespace Accepted

variable {e : ImportEnv} {items : List Mapping} {records : List SidecarRecord}
  {allocated : List String}

section

variable (h : Accepted e items records allocated) (hr : r ∈ records) (href : ref ∈ r.blockedBy)
include h hr href

theorem resolved_target :
    (∃ id ∈ items.map idOf, target items records ref = .inl id ∧
      keyIn (idMapping (keyToId items (createdOf items records) allocated) records) ref = id) ∨
    ∃ entry ∈ ((createdOf items records).map SidecarRecord.importKey).zip allocated,
      target items records ref = .inr entry.1 ∧
        keyIn (idMapping (keyToId items (createdOf items records) allocated) records) ref =
          entry.2 := by
  rw [keyIn_idMapping]
  unfold target
  cases hdraft : Dictionary.get? (draftKeyById records) ref with
  | none =>
    refine .inl ⟨ref, (h.refs r hr ref href).resolve_left fun hmem => ?_, rfl, rfl⟩
    refine Dictionary.get?_eq_none_iff.mp hdraft ?_
    unfold draftKeyById
    rw [List.map_map]
    exact hmem
  | some key =>
    obtain ⟨other, hother, rfl⟩ := exists_of_draftKeyById hdraft
    obtain ⟨id, hid⟩ := Option.isSome_iff_exists.mp
      (Dictionary.isSome_get?_iff.mpr (h.mem_keyToId hother))
    have hpair := (Dictionary.get?_eq_some_iff h.nodup_keyToId).mp hid
    unfold keyToId at hpair
    simp only [Option.map_some, Option.getD_some]
    cases hlive : Dictionary.get? (liveKeys items) other.importKey with
    | some old =>
      have hmem := Dictionary.mem_of_get? hlive
      have hsame : Dictionary.get? (keyToId items (createdOf items records) allocated)
          other.importKey = some old := by
        rw [Dictionary.get?_eq_some_iff h.nodup_keyToId]
        exact List.mem_append_left _ hmem
      obtain ⟨item, hitem, -, hold⟩ := mem_existingKeyById.mp (mem_liveKeys.mp hmem)
      refine .inl ⟨old, List.mem_map.mpr ⟨item, hitem, hold⟩, rfl, ?_⟩
      rw [hsame]
      rfl
    | none =>
      rcases List.mem_append.mp hpair with hmem | hmem
      · exact absurd (List.mem_map.mpr ⟨_, hmem, rfl⟩) (Dictionary.get?_eq_none_iff.mp hlive)
      · refine .inr ⟨_, hmem, rfl, ?_⟩
        rw [hid]
        rfl

/-- **References become one id** exactly when they have one target. -/
theorem resolved_eq_iff {other : String} (hother : other ∈ r.blockedBy) :
    keyIn (idMapping (keyToId items (createdOf items records) allocated) records) ref =
        keyIn (idMapping (keyToId items (createdOf items records) allocated) records) other ↔
      target items records ref = target items records other := by
  have hnew {id : String} (hid : id ∈ items.map idOf) {entry : String × String}
      (hentry : entry ∈ ((createdOf items records).map SidecarRecord.importKey).zip allocated) :
      id ≠ entry.2 := by
    rintro rfl
    exact (h.minted _ (List.of_mem_zip hentry).2).2 hid
  have hlength : ((createdOf items records).map SidecarRecord.importKey).length =
      allocated.length := (List.length_map _).trans h.length.symm
  rcases h.resolved_target hr href with ⟨id, hid, htarget, hvalue⟩ | ⟨entry, hentry, htarget, hvalue⟩
  · rcases h.resolved_target hr hother with ⟨id', -, htarget', hvalue'⟩ |
      ⟨entry', hentry', htarget', hvalue'⟩
    · rw [htarget, hvalue, htarget', hvalue', Sum.inl.injEq]
    · rw [htarget, hvalue, htarget', hvalue']
      exact iff_of_false (hnew hid hentry') (nofun)
  · rcases h.resolved_target hr hother with ⟨id', hid', htarget', hvalue'⟩ |
      ⟨entry', hentry', htarget', hvalue'⟩
    · rw [htarget, hvalue, htarget', hvalue']
      exact iff_of_false (hnew hid' hentry).symm (nofun)
    · rw [htarget, hvalue, htarget', hvalue', Sum.inr.injEq]
      constructor
      · intro heq
        have hsnd : ((((createdOf items records).map SidecarRecord.importKey).zip
            allocated).map Prod.snd).Nodup := by
          rw [List.map_snd_zip (Nat.le_of_eq hlength.symm)]
          exact h.distinct
        exact congrArg Prod.fst (List.inj_on_of_nodup_map hsnd hentry hentry' heq)
      · intro heq
        have hfst : ((((createdOf items records).map SidecarRecord.importKey).zip
            allocated).map Prod.fst).Nodup := by
          rw [List.map_fst_zip (Nat.le_of_eq hlength)]
          exact (createdRecords_spec _ records).1
        exact congrArg Prod.snd (List.inj_on_of_nodup_map hfst hentry hentry' heq)

end

/-- **The errors of the repetition**: those that the items had, and collisions with the items
of records whose references became one id. -/
theorem importErrors_updatedItems_iff (h : Accepted e items records allocated) (c : ImportCall) :
    importErrors records (updatedItems c items records allocated) [] = .ok [] ↔
      importErrors records items [] = .ok [] ∧ DistinctTargets items records := by
  have hrefs : ∀ r ∈ records, ∀ ref ∈ r.blockedBy, ref ∈ draftIds records ∨
      ref ∈ (updatedItems c items records allocated).map idOf := by
    intro r hr ref href
    rw [ids_updatedItems c h]
    exact (h.refs r hr ref href).imp_right (List.mem_append_left _)
  have hself : (∀ r ∈ records, ∀ ref ∈ r.blockedBy,
        keyIn (blockerKeys records (updatedItems c items records allocated)) ref ≠ r.importKey) ↔
      ∀ r ∈ records, ∀ ref ∈ r.blockedBy, keyIn (blockerKeys records items) ref ≠ r.importKey :=
    forall₂_congr fun r hr => forall₂_congr fun ref href => by
      rw [h.keyIn_blockerKeys_updatedItems c hr href]
  have hgroups : (∀ r ∈ records, ∀ other ∈ records, other.importKey = r.importKey →
        other.signature (keyIn (blockerKeys records (updatedItems c items records allocated))) =
          r.signature (keyIn (blockerKeys records (updatedItems c items records allocated)))) ↔
      ∀ r ∈ records, ∀ other ∈ records, other.importKey = r.importKey →
        other.signature (keyIn (blockerKeys records items)) =
          r.signature (keyIn (blockerKeys records items)) :=
    forall₂_congr fun r hr => forall₂_congr fun other hother => by
      rw [h.signature_updatedItems c hr, h.signature_updatedItems c hother]
  rw [importErrors_eq_nil_iff, importErrors_eq_nil_iff, hself, hgroups]
  constructor
  · rintro ⟨-, -, hselves, hcycle, hsame, hcollisions⟩
    refine ⟨⟨rfl, h.refs, hselves, hcycle, hsame, h.live⟩, ?_⟩
    intro r hr ref href other hother htarget
    have hrecord := ((createdRecords_spec _ records).2.1 r hr).1
    exact (h.collisionOf_created_iff c hr).mp (hcollisions r hrecord) ref href other hother
      ((h.resolved_eq_iff hrecord href hother).mpr htarget)
  · rintro ⟨⟨-, -, hselves, hcycle, hsame, -⟩, hdistinct⟩
    refine ⟨rfl, hrefs, hselves, hcycle, hsame, ?_⟩
    intro r hr
    by_cases hold : r.importKey ∈ (liveKeys items).map Prod.fst
    · exact h.collisionOf_old c hr hold
    · -- The record that the item was made of has the signature of this one.
      obtain ⟨first, hfirst, hkey⟩ :=
        List.mem_map.mp ((createdRecords_spec _ records).2.2 r hr hold)
      have hrecord := ((createdRecords_spec _ records).2.1 first hfirst).1
      rw [collisionOf_eq_none_congr hkey.symm (hgroups.mpr hsame first hrecord r hr hkey.symm),
        h.collisionOf_created_iff c hfirst]
      intro ref href other hother heq
      exact hdistinct first hfirst ref href other hother
        ((h.resolved_eq_iff hrecord href hother).mp heq)

end Accepted

end GoalFlight.Tasks
