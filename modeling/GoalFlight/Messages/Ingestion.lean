import GoalFlight.Library.Machine
import GoalFlight.Library.Threads

/-!
# Ingestion orders

Each canonical envelope identity gets one controller-local order.  It is stored in a database that
is linked into place complete; a call that finds no row takes the lock of the legacy map, folds the
legacy stores in, looks again and allocates from the `.ingestion-order` counter.

Processes take turns, one file or database operation at a time; a call may stop at any place, which
frees its locks.  Processes on older code write the legacy stores at any time, and may allocate from
the counter.  An identity is its SHA-256 hash here.
-/

namespace GoalFlight.Messages

variable {order p q : ℕ} {identity : String}

/-! ### The stores -/

/-- The legacy stores, the oldest assignment first. -/
inductive IngestionSource
  /-- `.ingestion-identities.json.migrated`. -/
  | migratedMap
  /-- `.ingestion-identities.d/`. -/
  | shards
  /-- `.ingestion-identities.json`. -/
  | liveMap
deriving DecidableEq

/-- A legacy store: its signature and its rows. -/
structure SourceFile where
  signature : ℕ
  rows : List (String × ℕ)

/-- What the processes share. -/
structure IngestionStore where
  /-- The rows of the database, once it is linked into place. -/
  db : Option (String → Option ℕ)
  /-- `.ingestion-order`. -/
  counter : Option ℕ
  source : IngestionSource → Option SourceFile
  /-- Who holds the lock of the legacy map. -/
  lock : Option ℕ
  /-- Who holds the lock of the counter. -/
  orderLock : Option ℕ
  /-- The identities for which the counter was advanced, with their orders, in that order. -/
  allocated : List (String × ℕ)
  /-- The rows inserted after an allocation. -/
  inserted : List (String × ℕ)
  /-- What calls have returned. -/
  returned : List (String × ℕ)

variable {s t : IngestionStore}

namespace IngestionStore

/-- `_select_ingestion_order`. -/
def row (s : IngestionStore) (identity : String) : Option ℕ := s.db.bind (· identity)

/-- `INSERT OR IGNORE`. -/
def insertIgnore (identity : String) (order : ℕ) (rows : String → Option ℕ) : String → Option ℕ :=
  fun other => if other = identity then some ((rows identity).getD order) else rows other

/-- The rows of one source folded in: `INSERT OR REPLACE` into a table of its own, then
`INSERT OR IGNORE` from there. -/
def importSource (rows : String → Option ℕ) (legacy : List (String × ℕ)) : String → Option ℕ :=
  fun identity => (rows identity).or (legacy.reverse.lookup identity)

/-- The locks of a process freed. -/
def release (s : IngestionStore) (p : ℕ) : IngestionStore :=
  { s with
    lock := if s.lock = some p then none else s.lock
    orderLock := if s.orderLock = some p then none else s.orderLock }

/-- A call returned. -/
def answer (s : IngestionStore) (identity : String) (order : ℕ) : IngestionStore :=
  { s with returned := s.returned ++ [(identity, order)] }

end IngestionStore

/-! ### A call -/

/-- A source read before the lock is taken. -/
structure PreparedSource where
  source : IngestionSource
  signature : ℕ
  rows : List (String × ℕ)

/-- Who allocates: a call of this code, or a process on older code. -/
inductive OrderCaller
  | current
  | old

/-- Where a process is in `_ingestion_order_for_envelope` and `_next_ingestion_order`. -/
inductive IngestionPlace
  | idle
  | start (identity : String)
  /-- The lock-free look. -/
  | select (identity : String)
  | stat (identity : String) (pending : List IngestionSource) (prepared : List PreparedSource)
  | read (identity : String) (source : IngestionSource) (signature : ℕ)
      (pending : List IngestionSource) (prepared : List PreparedSource)
  | lock (identity : String) (prepared : List PreparedSource)
  | create (identity : String) (prepared : List PreparedSource)
  | importLegacy (identity : String) (prepared : List PreparedSource)
  | renameAside (identity : String) (sources : List IngestionSource)
  | recheck (identity : String)
  | lockOrder (identity : String) (caller : OrderCaller)
  | readOrder (identity : String) (caller : OrderCaller)
  | writeOrder (identity : String) (caller : OrderCaller) (order : ℕ)
  | insert (identity : String) (order : ℕ)
  | reselect (identity : String) (order : ℕ)

/-- `_interim_ingestion_sources`. -/
def interimIngestionSources : List IngestionSource := [.migratedMap, .shards]

/-- What `_import_legacy_ingestion_identities` imports: the prepared sources that are still
there, read again if their signature changed, and the live map. -/
def importSources (s : IngestionStore) (prepared : List PreparedSource) :
    List (IngestionSource × List (String × ℕ)) :=
  prepared.filterMap (fun entry => (s.source entry.source).map fun file =>
      (entry.source, if file.signature = entry.signature then entry.rows else file.rows)) ++
    ((s.source .liveMap).map fun file => (IngestionSource.liveMap, file.rows)).toList

/-- The next operation of a process, at a time of the wall clock. -/
def advance (p now : ℕ) (s : IngestionStore) : IngestionPlace → IngestionStore × IngestionPlace
  | .idle => (s, .idle)
  | .start identity =>
    if s.db.isSome then (s, .select identity)
    else (s, .stat identity interimIngestionSources [])
  | .select identity =>
    match s.row identity with
    | some existing => (s.answer identity existing, .idle)
    | none => (s, .stat identity interimIngestionSources [])
  | .stat identity [] prepared => (s, .lock identity prepared)
  | .stat identity (source :: pending) prepared =>
    match s.source source with
    | none => (s, .stat identity pending prepared)
    | some file => (s, .read identity source file.signature pending prepared)
  | .read identity source signature pending prepared =>
    let rows := ((s.source source).map SourceFile.rows).getD []
    (s, .stat identity pending (prepared ++ [⟨source, signature, rows⟩]))
  | .lock identity prepared =>
    if s.lock = none then ({ s with lock := some p }, .create identity prepared)
    else (s, .lock identity prepared)
  | .create identity prepared =>
    -- Linking into place leaves a database that is there.
    ({ s with db := some (s.db.getD fun _ => none) }, .importLegacy identity prepared)
  | .importLegacy identity prepared =>
    let sources := importSources s prepared
    ({ s with db := s.db.map fun rows =>
        (sources.map Prod.snd).foldl IngestionStore.importSource rows },
      .renameAside identity (sources.map Prod.fst))
  | .renameAside identity [] => (s, .recheck identity)
  | .renameAside identity (source :: rest) =>
    ({ s with source := Function.update s.source source none }, .renameAside identity rest)
  | .recheck identity =>
    match s.row identity with
    | some existing => ((s.answer identity existing).release p, .idle)
    | none => (s, .lockOrder identity .current)
  | .lockOrder identity caller =>
    if s.orderLock = none then ({ s with orderLock := some p }, .readOrder identity caller)
    else (s, .lockOrder identity caller)
  | .readOrder identity caller =>
    (s, .writeOrder identity caller (max (s.counter.getD 0 + 1) now))
  | .writeOrder identity caller order =>
    ({ s with
        counter := some order
        orderLock := none
        allocated := s.allocated ++ [(identity, order)] },
      match caller with
      | .current => .insert identity order
      | .old => .idle)
  | .insert identity order =>
    ({ s with
        db := s.db.map (IngestionStore.insertIgnore identity order)
        inserted := s.inserted ++ [(identity, order)] },
      .reselect identity order)
  | .reselect identity _ =>
    match s.row identity with
    | some stored => ((s.answer identity stored).release p, .idle)
    | none => (s.release p, .idle)

/-! ### Runs -/

/-- What can happen next. -/
inductive IngestionAction
  /-- A process calls `_ingestion_order_for_envelope`. -/
  | call (p : ℕ) (identity : String)
  /-- A process on older code calls `_next_ingestion_order`. -/
  | oldCall (p : ℕ) (identity : String)
  | run (p now : ℕ)
  /-- A call fails, or its process dies. -/
  | stop (p : ℕ)
  /-- A legacy store is written or removed. -/
  | legacy (source : IngestionSource) (file : Option SourceFile)

/-- The store and the places of all processes. -/
abbrev IngestionState := Threads.State IngestionStore IngestionPlace

/-- One action. -/
def ingestionStep (s : IngestionState) : IngestionAction → IngestionState
  | .call p identity =>
    match s.place p with
    | .idle => s.turn p (s.shared, .start identity)
    | _ => s
  | .oldCall p identity =>
    match s.place p with
    | .idle => s.turn p (s.shared, .lockOrder identity .old)
    | _ => s
  | .run p now => s.turn p (advance p now s.shared (s.place p))
  | .stop p => s.turn p (s.shared.release p, .idle)
  | .legacy source file =>
    s.environment { s.shared with source := Function.update s.shared.source source file }

/-- No call has started; whatever the database, the counter and the legacy stores hold. -/
def ingestionInitial (db : Option (String → Option ℕ)) (counter : Option ℕ)
    (source : IngestionSource → Option SourceFile) : IngestionState :=
  ⟨⟨db, counter, source, none, none, [], [], []⟩, fun _ => .idle⟩

/-! ### Rows stay -/

/-- Every row that is stored stays as it is. -/
def RowsStay (s t : IngestionStore) : Prop :=
  ∀ identity order, s.row identity = some order → t.row identity = some order

theorem RowsStay.refl (s : IngestionStore) : RowsStay s s := fun _ _ h => h

theorem RowsStay.trans {u : IngestionStore} (h : RowsStay s t) (h' : RowsStay t u) :
    RowsStay s u :=
  fun identity order hrow => h' identity order (h identity order hrow)

theorem rowsStay_of_db (h : t.db = s.db) : RowsStay s t := by
  intro identity order hrow
  unfold IngestionStore.row at hrow ⊢
  rw [h]
  exact hrow

theorem foldl_importSource {rows : String → Option ℕ} (h : rows identity = some order)
    (sources : List (List (String × ℕ))) :
    sources.foldl IngestionStore.importSource rows identity = some order := by
  induction sources generalizing rows with
  | nil => exact h
  | cons legacy sources ih =>
    rw [List.foldl_cons]
    apply ih
    show (rows identity).or _ = some order
    rw [h]
    rfl

theorem insertIgnore_of_some {rows : String → Option ℕ} {other : String} {o : ℕ}
    (h : rows other = some o) :
    IngestionStore.insertIgnore identity order rows other = some o := by
  unfold IngestionStore.insertIgnore
  split
  · rename_i heq
    rw [← heq, h]
    rfl
  · exact h

theorem rowsStay_map {f : (String → Option ℕ) → String → Option ℕ}
    (hf : ∀ rows identity order, rows identity = some order → f rows identity = some order)
    (h : t.db = s.db.map f) : RowsStay s t := by
  intro identity order hrow
  unfold IngestionStore.row at hrow ⊢
  rw [h]
  obtain ⟨rows, hdb, hstored⟩ := Option.bind_eq_some_iff.mp hrow
  rw [hdb]
  exact hf rows identity order hstored

theorem rowsStay_advance (p now : ℕ) (s : IngestionStore) (k : IngestionPlace) :
    RowsStay s (advance p now s k).1 := by
  cases k with
  | idle | read | readOrder | writeOrder => exact rowsStay_of_db rfl
  | start identity | lock identity prepared | lockOrder identity caller =>
    simp only [advance]
    split
    · exact rowsStay_of_db rfl
    · exact rowsStay_of_db rfl
  | select identity | recheck identity | reselect identity order =>
    simp only [advance]
    split
    · exact rowsStay_of_db rfl
    · exact rowsStay_of_db rfl
  | stat identity pending prepared =>
    cases pending with
    | nil => exact rowsStay_of_db rfl
    | cons source pending =>
      simp only [advance]
      split
      · exact rowsStay_of_db rfl
      · exact rowsStay_of_db rfl
  | create identity prepared =>
    intro other order hrow
    obtain ⟨rows, hdb, hstored⟩ := Option.bind_eq_some_iff.mp hrow
    show (s.db.getD fun _ => none) other = some order
    rw [hdb]
    exact hstored
  | importLegacy identity prepared =>
    exact rowsStay_map (fun rows other order h => foldl_importSource h _) rfl
  | renameAside identity sources =>
    cases sources with
    | nil => exact rowsStay_of_db rfl
    | cons source rest => exact rowsStay_of_db rfl
  | insert identity order =>
    exact rowsStay_map (fun rows other o h => insertIgnore_of_some h) rfl

theorem rowsStay_step (s : IngestionState) (a : IngestionAction) :
    RowsStay s.shared (ingestionStep s a).shared := by
  cases a with
  | call p identity | oldCall p identity =>
    unfold ingestionStep
    simp only
    split
    · exact RowsStay.refl _
    · exact RowsStay.refl _
  | run p now => exact rowsStay_advance p now s.shared (s.place p)
  | stop p | legacy source file => exact rowsStay_of_db rfl

/-! ### Assertions -/

/-- A process holds the lock and the identity has no row. -/
structure Absent (s : IngestionStore) (p : ℕ) (identity : String) : Prop where
  lock : s.lock = some p
  db : s.db.isSome = true
  row : s.row identity = none

/-- **What a process knows at each place.** -/
def IngestionPlace.Ok (s : IngestionStore) (p : ℕ) : IngestionPlace → Prop
  | .create _ _ => s.lock = some p
  | .importLegacy _ _ | .renameAside _ _ | .recheck _ => s.lock = some p ∧ s.db.isSome = true
  | .lockOrder identity caller => caller = .current → Absent s p identity
  | .readOrder identity caller =>
    s.orderLock = some p ∧ (caller = .current → Absent s p identity)
  | .writeOrder identity caller order =>
    s.orderLock = some p ∧ s.counter.getD 0 < order ∧ (caller = .current → Absent s p identity)
  | .insert identity order => Absent s p identity ∧ (identity, order) ∈ s.allocated
  | .reselect identity order => s.lock = some p ∧ s.row identity = some order
  | _ => True

/-- **The invariant of the shared stores.** -/
structure OrdersKept (s : IngestionStore) : Prop where
  returned : ∀ r ∈ s.returned, s.row r.1 = some r.2
  inserted : ∀ r ∈ s.inserted, s.row r.1 = some r.2 ∧ r ∈ s.allocated
  bounded : ∀ r ∈ s.allocated, r.2 ≤ s.counter.getD 0
  increasing : s.allocated.Pairwise fun a b => a.2 < b.2

/-- What the others' turns leave to a process. -/
structure Spares (s t : IngestionStore) (q : ℕ) : Prop where
  lock : s.lock = some q → t.lock = some q ∧ ∀ identity, t.row identity = s.row identity
  orderLock : s.orderLock = some q → t.orderLock = some q ∧ t.counter = s.counter
  db : s.db.isSome = true → t.db.isSome = true
  allocated : ∀ r ∈ s.allocated, r ∈ t.allocated

theorem Absent.spared (h : Absent s q identity) (hspares : Spares s t q) :
    Absent t q identity := by
  obtain ⟨hlock, hrows⟩ := hspares.lock h.lock
  exact ⟨hlock, hspares.db h.db, (hrows identity).trans h.row⟩

theorem IngestionPlace.Ok.spared {k : IngestionPlace} (h : k.Ok s q) (hspares : Spares s t q) :
    k.Ok t q := by
  cases k with
  | create identity prepared => exact (hspares.lock h).1
  | importLegacy | renameAside | recheck => exact ⟨(hspares.lock h.1).1, hspares.db h.2⟩
  | lockOrder identity caller => exact fun hcaller => (h hcaller).spared hspares
  | readOrder identity caller =>
    exact ⟨(hspares.orderLock h.1).1, fun hcaller => (h.2 hcaller).spared hspares⟩
  | writeOrder identity caller order =>
    obtain ⟨horder, hless, hcurrent⟩ := h
    obtain ⟨horder', hcounter⟩ := hspares.orderLock horder
    refine ⟨horder', ?_, fun hcaller => (hcurrent hcaller).spared hspares⟩
    rw [hcounter]
    exact hless
  | insert identity order => exact ⟨h.1.spared hspares, hspares.allocated _ h.2⟩
  | reselect identity order =>
    obtain ⟨hlock, hrows⟩ := hspares.lock h.1
    exact ⟨hlock, (hrows identity).trans h.2⟩
  | idle | start | select | stat | read | lock => trivial

theorem spares_frame (s : IngestionStore) (source : IngestionSource → Option SourceFile)
    (returned : List (String × ℕ)) (q : ℕ) :
    Spares s { s with source := source, returned := returned } q :=
  ⟨fun h => ⟨h, fun _ => rfl⟩, fun h => ⟨h, rfl⟩, fun h => h, fun _ h => h⟩

theorem spares_release (hne : q ≠ p) : Spares s (s.release p) q := by
  refine ⟨?_, ?_, fun h => h, fun _ h => h⟩
  · intro h
    refine ⟨?_, fun identity => rfl⟩
    show (if s.lock = some p then none else s.lock) = some q
    rw [if_neg, h]
    rw [h]
    exact fun heq => hne (Option.some.inj heq)
  · intro h
    refine ⟨?_, rfl⟩
    show (if s.orderLock = some p then none else s.orderLock) = some q
    rw [if_neg, h]
    rw [h]
    exact fun heq => hne (Option.some.inj heq)

theorem spares_of_locked (hne : q ≠ p) (hp : s.lock = some p)
    (hcounter : t.counter = s.counter) (horder : t.orderLock = s.orderLock)
    (hdb : s.db.isSome = true → t.db.isSome = true) (hallocated : t.allocated = s.allocated) :
    Spares s t q := by
  refine ⟨?_, fun h => ⟨horder.trans h, hcounter⟩, hdb, ?_⟩
  · intro h
    exact absurd (Option.some.inj (h.symm.trans hp)) hne
  · rw [hallocated]
    exact fun _ h => h

theorem OrdersKept.of_rowsStay (h : OrdersKept s) (hrows : RowsStay s t)
    (hreturned : t.returned = s.returned) (hinserted : t.inserted = s.inserted)
    (hallocated : t.allocated = s.allocated) (hcounter : t.counter = s.counter) :
    OrdersKept t := by
  refine ⟨?_, ?_, ?_, ?_⟩
  · rw [hreturned]
    exact fun r hr => hrows _ _ (h.returned r hr)
  · rw [hinserted, hallocated]
    exact fun r hr => ⟨hrows _ _ (h.inserted r hr).1, (h.inserted r hr).2⟩
  · rw [hallocated, hcounter]
    exact h.bounded
  · rw [hallocated]
    exact h.increasing

theorem OrdersKept.answer (h : OrdersKept s) (hrow : s.row identity = some order) :
    OrdersKept (s.answer identity order) := by
  refine ⟨?_, h.inserted, h.bounded, h.increasing⟩
  intro r hr
  rcases List.mem_append.mp hr with hold | hnew
  · exact h.returned r hold
  · rw [List.mem_singleton.mp hnew]
    exact hrow

/-- What an operation has to establish. -/
structure Steps (p : ℕ) (s : IngestionStore) (next : IngestionStore × IngestionPlace) : Prop where
  kept : OrdersKept next.1
  own : next.2.Ok next.1 p
  others : ∀ q, q ≠ p → Spares s next.1 q

theorem steps_of_same {k : IngestionPlace} (h : OrdersKept s) (hok : k.Ok s p) :
    Steps p s (s, k) :=
  ⟨h, hok, fun q _ => spares_frame s _ _ q⟩

theorem steps_stat (h : OrdersKept s) (identity : String) (pending : List IngestionSource)
    (prepared : List PreparedSource) :
    Steps p s (s, .stat identity pending prepared) :=
  steps_of_same h trivial

theorem steps_answer_release (h : OrdersKept s) (hrow : s.row identity = some order) :
    Steps p s ((s.answer identity order).release p, .idle) := by
  refine ⟨?_, trivial, ?_⟩
  · exact (h.answer hrow).of_rowsStay (rowsStay_of_db rfl) rfl rfl rfl rfl
  · intro q hq
    have hspares : Spares s (s.answer identity order) q := spares_frame s _ _ q
    have hrelease := spares_release (s := s.answer identity order) hq
    exact ⟨hrelease.lock, hrelease.orderLock, hrelease.db, hrelease.allocated⟩

theorem row_insertIgnore (h : Absent s p identity) (order : ℕ) :
    (s.db.map (IngestionStore.insertIgnore identity order)).bind (· identity) = some order := by
  obtain ⟨rows, hdb⟩ := Option.isSome_iff_exists.mp h.db
  have hnone : rows identity = none := by
    have hrow := h.row
    unfold IngestionStore.row at hrow
    rw [hdb] at hrow
    exact hrow
  rw [hdb]
  show (if identity = identity then some ((rows identity).getD order) else rows identity) = some order
  rw [if_pos rfl, hnone]
  rfl

/-- **One operation of a call.** -/
theorem steps_advance (now : ℕ) {k : IngestionPlace} (h : OrdersKept s) (hok : k.Ok s p) :
    Steps p s (advance p now s k) := by
  cases k with
  | idle => exact steps_of_same h trivial
  | start identity =>
    simp only [advance]
    split
    · exact steps_of_same h trivial
    · exact steps_stat h _ _ _
  | select identity =>
    simp only [advance]
    split
    · rename_i existing hrow
      exact ⟨h.answer hrow, trivial, fun q _ => spares_frame s _ _ q⟩
    · exact steps_stat h _ _ _
  | stat identity pending prepared =>
    cases pending with
    | nil => exact steps_of_same h trivial
    | cons source pending =>
      simp only [advance]
      split
      · exact steps_stat h _ _ _
      · exact steps_of_same h trivial
  | read identity source signature pending prepared => exact steps_stat h _ _ _
  | lock identity prepared =>
    simp only [advance]
    split
    · rename_i hfree
      refine ⟨h.of_rowsStay (rowsStay_of_db rfl) rfl rfl rfl rfl, rfl, ?_⟩
      intro q _
      refine ⟨?_, fun horder => ⟨horder, rfl⟩, fun hdb => hdb, fun _ hr => hr⟩
      intro hlock
      rw [hfree] at hlock
      cases hlock
    · exact steps_of_same h trivial
  | create identity prepared =>
    refine ⟨h.of_rowsStay (rowsStay_advance p now s (.create identity prepared)) rfl rfl rfl rfl,
      ⟨hok, rfl⟩, ?_⟩
    exact fun q hq => spares_of_locked hq hok rfl rfl (fun _ => rfl) rfl
  | importLegacy identity prepared =>
    refine ⟨h.of_rowsStay (rowsStay_advance p now s (.importLegacy identity prepared))
      rfl rfl rfl rfl, ⟨hok.1, ?_⟩, ?_⟩
    · show (s.db.map _).isSome = true
      rw [Option.isSome_map]
      exact hok.2
    · intro q hq
      refine spares_of_locked hq hok.1 rfl rfl ?_ rfl
      intro hdb
      show (s.db.map _).isSome = true
      rw [Option.isSome_map]
      exact hdb
  | renameAside identity sources =>
    cases sources with
    | nil => exact steps_of_same h hok
    | cons source rest =>
      exact ⟨h.of_rowsStay (rowsStay_of_db rfl) rfl rfl rfl rfl, hok,
        fun q _ => spares_frame s _ _ q⟩
  | recheck identity =>
    simp only [advance]
    split
    · rename_i existing hrow
      exact steps_answer_release h hrow
    · rename_i hrow
      exact steps_of_same h fun _ => ⟨hok.1, hok.2, hrow⟩
  | lockOrder identity caller =>
    simp only [advance]
    split
    · rename_i hfree
      refine ⟨h.of_rowsStay (rowsStay_of_db rfl) rfl rfl rfl rfl, ⟨rfl, ?_⟩, ?_⟩
      · exact fun hcaller => ⟨(hok hcaller).lock, (hok hcaller).db, (hok hcaller).row⟩
      · intro q _
        refine ⟨fun hlock => ⟨hlock, fun _ => rfl⟩, ?_, fun hdb => hdb, fun _ hr => hr⟩
        intro horder
        rw [hfree] at horder
        cases horder
    · exact steps_of_same h hok
  | readOrder identity caller =>
    refine steps_of_same h ⟨hok.1, ?_, hok.2⟩
    exact Nat.lt_of_lt_of_le (Nat.lt_succ_self _) (Nat.le_max_left _ _)
  | writeOrder identity caller order =>
    obtain ⟨horder, hless, hcurrent⟩ := hok
    have hrows : RowsStay s (advance p now s (.writeOrder identity caller order)).1 :=
      rowsStay_of_db rfl
    refine ⟨⟨fun r hr => hrows _ _ (h.returned r hr), ?_, ?_, ?_⟩, ?_, ?_⟩
    · exact fun r hr => ⟨hrows _ _ (h.inserted r hr).1, List.mem_append_left _ (h.inserted r hr).2⟩
    · intro r hr
      show r.2 ≤ order
      rcases List.mem_append.mp hr with hold | hnew
      · exact Nat.le_of_lt (Nat.lt_of_le_of_lt (h.bounded r hold) hless)
      · exact Nat.le_of_eq (congrArg Prod.snd (List.mem_singleton.mp hnew))
    · -- The new order is above every earlier one.
      show (s.allocated ++ [(identity, order)]).Pairwise _
      rw [List.pairwise_append]
      refine ⟨h.increasing, List.pairwise_singleton _ _, ?_⟩
      intro r hr r' hr'
      rw [List.mem_singleton.mp hr']
      exact Nat.lt_of_le_of_lt (h.bounded r hr) hless
    · cases caller with
      | current =>
        have habsent := hcurrent rfl
        exact ⟨⟨habsent.lock, habsent.db, habsent.row⟩,
          List.mem_append_right _ (List.mem_singleton_self _)⟩
      | old => trivial
    · intro q hq
      refine ⟨fun hlock => ⟨hlock, fun _ => rfl⟩, ?_, fun hdb => hdb,
        fun r hr => List.mem_append_left _ hr⟩
      intro hq'
      exact absurd (Option.some.inj (hq'.symm.trans horder)) hq
  | insert identity order =>
    obtain ⟨habsent, hallocated⟩ := hok
    have hrows := rowsStay_advance p now s (.insert identity order)
    have hrow : (advance p now s (.insert identity order)).1.row identity = some order :=
      row_insertIgnore habsent order
    refine ⟨⟨fun r hr => hrows _ _ (h.returned r hr), ?_, h.bounded, h.increasing⟩,
      ⟨habsent.lock, hrow⟩, ?_⟩
    · intro r hr
      rcases List.mem_append.mp hr with hold | hnew
      · exact ⟨hrows _ _ (h.inserted r hold).1, (h.inserted r hold).2⟩
      · rw [List.mem_singleton.mp hnew]
        exact ⟨hrow, hallocated⟩
    · intro q hq
      refine spares_of_locked hq habsent.lock rfl rfl ?_ rfl
      intro hdb
      show (s.db.map _).isSome = true
      rw [Option.isSome_map]
      exact hdb
  | reselect identity order =>
    simp only [advance]
    split
    · rename_i stored hrow
      exact steps_answer_release h hrow
    · exact ⟨h.of_rowsStay (rowsStay_of_db rfl) rfl rfl rfl rfl, trivial,
        fun q hq => spares_release hq⟩

/-! ### Every run -/

/-- The invariant of a state: that of the stores, and what every process knows. -/
abbrev IngestionHolds : IngestionState → Prop :=
  Threads.Holds OrdersKept fun s p k => k.Ok s p

/-- **One action.** -/
theorem ingestionHolds_step {s : IngestionState} (h : IngestionHolds s) (a : IngestionAction) :
    IngestionHolds (ingestionStep s a) := by
  have hturn : ∀ {p : ℕ} {next : IngestionStore × IngestionPlace}, Steps p s.shared next →
      IngestionHolds (s.turn p next) :=
    fun hsteps => h.turn hsteps.kept hsteps.own fun q hq hok => hok.spared (hsteps.others q hq)
  cases a with
  | call p identity =>
    simp only [ingestionStep]
    split
    · exact hturn (steps_of_same h.inv trivial)
    · exact h
  | oldCall p identity =>
    simp only [ingestionStep]
    split
    · exact hturn (steps_of_same h.inv nofun)
    · exact h
  | run p now => exact hturn (steps_advance now h.inv (h.ok p))
  | stop p =>
    exact hturn ⟨h.inv.of_rowsStay (rowsStay_of_db rfl) rfl rfl rfl rfl, trivial,
      fun q hq => spares_release hq⟩
  | legacy source file =>
    apply h.environment
    · exact h.inv.of_rowsStay (rowsStay_of_db rfl) rfl rfl rfl rfl
    · exact fun q k hok => hok.spared (spares_frame s.shared _ _ q)

theorem ingestionHolds_initial (db : Option (String → Option ℕ)) (counter : Option ℕ)
    (source : IngestionSource → Option SourceFile) :
    IngestionHolds (ingestionInitial db counter source) := by
  refine ⟨⟨?_, ?_, ?_, List.Pairwise.nil⟩, fun p => trivial⟩
  · exact nofun
  · exact nofun
  · exact nofun

end GoalFlight.Messages
