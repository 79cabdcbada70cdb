import GoalFlight.Journal.Schema
import GoalFlight.Library.Binary64
import GoalFlight.Library.Machine
import Mathlib.Data.List.Sort

/-!
# The doorbell's outbox

The transaction that projects a delivery puts a row into `wake_webhook_outbox`, and `flush_due`
posts what is due until the host answers or the event is no longer visible.  A failed post puts the
row off, for twice as long as the failure before, up to a minute.

The delay is a float times an integer power of two, computed before the cap, which fails from
`2 ** 1024` on: the mark of the 1025th failure raises, the transaction rolls back, and the row stays
as due as it was (`doorbell_backsOff_iff`).

Flushes and deliveries interleave by transactions: a row that has ended stays so
(`doorbell_ends_once`).
-/

namespace GoalFlight

open Relational

/-! ### Rows -/

/-- `delivered_at`, or `abandoned_at` and `abandon_reason`: the row has at most one. -/
inductive DoorbellEnd
  | delivered (deliveredAt : Timestamp)
  | abandoned (abandonedAt : Timestamp) (reason : String)

/-- A row of `wake_webhook_outbox`. -/
structure DoorbellRow where
  recipient : Recipient
  event : EventId
  streamId : String
  streamSeq : ℕ
  eventType : String
  createdAt : Timestamp
  enqueuedAt : Timestamp
  ended : Option DoorbellEnd
  deliveryAttempts : ℕ
  lastError : Option String
  retryAt : Option Timestamp

/-- `PRIMARY KEY (recipient_label, origin_node, event_uuid)`. -/
abbrev DoorbellRow.key (r : DoorbellRow) : Recipient × EventId := (r.recipient, r.event)

/-- `delivered_at IS NULL AND abandoned_at IS NULL`. -/
abbrev DoorbellRow.Pending (r : DoorbellRow) : Prop := r.ended = none

/-- The table `wake_webhook_outbox`. -/
abbrev DoorbellTable := KeyedTable DoorbellRow.key

namespace DoorbellTable

/-- The pending row with the key. -/
def pending? (t : DoorbellTable) (key : Recipient × EventId) : Option DoorbellRow :=
  t.find? fun r => r.key = key ∧ r.Pending

/-- `UPDATE wake_webhook_outbox SET … WHERE key AND delivered_at IS NULL AND abandoned_at
IS NULL`. -/
def updatePending (t : DoorbellTable) (key : Recipient × EventId)
    (f : DoorbellRow → DoorbellRow) (hf : ∀ r, (f r).key = r.key) : DoorbellTable :=
  KeyedTable.modify t (fun r => if r.key = key ∧ r.Pending then f r else r) (by
    intro r
    split
    · exact hf r
    · rfl)

/-! ### Transactions -/

/-- `_enqueue_wake_webhook_outbox`: `INSERT OR IGNORE`. -/
def enqueueWakeWebhookOutbox (t : DoorbellTable) (row : DeliveryEvent) (now : Timestamp) :
    DoorbellTable :=
  (t.insert?
    { recipient := row.recipient
      event := row.event
      streamId := row.streamId
      streamSeq := if row.streamSeq = 0 then 1 else row.streamSeq
      eventType := row.eventType
      createdAt := if row.createdAt = "" then now else row.createdAt
      enqueuedAt := now
      ended := none
      deliveryAttempts := 0
      lastError := none
      retryAt := none }).getD t

/-- `mark_wake_webhook_delivered`.  The value says whether a pending row was there. -/
def markWakeWebhookDelivered (t : DoorbellTable) (key : Recipient × EventId)
    (now : Timestamp) : Bool × DoorbellTable :=
  ((t.pending? key).isSome, t.updatePending key
    (fun r => { r with ended := some (.delivered now), lastError := none, retryAt := none })
    fun _ => rfl)

/-- `mark_wake_webhook_abandoned`. -/
def markWakeWebhookAbandoned (t : DoorbellTable) (key : Recipient × EventId) (reason : String)
    (now : Timestamp) : Bool × DoorbellTable :=
  let reason := if reason = "" then "no-longer-visible" else reason
  ((t.pending? key).isSome, t.updatePending key
    (fun r => { r with
      ended := some (.abandoned now (String.ofList (reason.toList.take 200)))
      retryAt := none })
    fun _ => rfl)

end DoorbellTable

/-- `WAKE_WEBHOOK_OUTBOX_RETRY_CAP_S`, a whole number of seconds. -/
def wakeWebhookOutboxRetryCapS : ℕ := 60

/-- `WAKE_WEBHOOK_OUTBOX_RETRY_BASE_S`, a whole number of seconds. -/
def wakeWebhookOutboxRetryBaseS : ℕ := 1

/-- The delay of `mark_wake_webhook_retry`: the power is made a float before the product
and the cap, or `OverflowError` is raised. -/
def wakeWebhookDelay (attempts : ℕ) : Option ℕ :=
  (Binary64.ofNat? (2 ^ (attempts - 1))).map fun power =>
    min wakeWebhookOutboxRetryCapS (wakeWebhookOutboxRetryBaseS * power)

/-- The text a failure leaves in `last_error`. -/
def doorbellErrorText (error : String) : String :=
  String.ofList ((if error = "" then "POST failed" else error).toList.take 2000)

/-- What `mark_wake_webhook_retry` reports of the row. -/
structure DoorbellRetry where
  key : Recipient × EventId
  deliveryAttempts : ℕ
  retryAt : Timestamp

/-- What `mark_wake_webhook_retry` can raise. -/
inductive DoorbellError
  | overflowError

/-- The row put off after a failure. -/
def DoorbellRow.putOff (r : DoorbellRow) (attempts : ℕ) (error : String)
    (retryAt : Timestamp) : DoorbellRow :=
  { r with
    deliveryAttempts := attempts
    lastError := some (doorbellErrorText error)
    retryAt := some retryAt }

/-- `mark_wake_webhook_retry`; `utcAfter` gives the time so many seconds ahead. -/
def DoorbellTable.markWakeWebhookRetry (t : DoorbellTable) (key : Recipient × EventId)
    (error : String) (utcAfter : ℕ → Timestamp) :
    Except DoorbellError (Option DoorbellRetry × DoorbellTable) :=
  match t.pending? key with
  | none => .ok (none, t)
  | some row =>
    let attempts := row.deliveryAttempts + 1
    match wakeWebhookDelay attempts with
    | none => .error .overflowError
    | some delay =>
      let retryAt := utcAfter delay
      .ok (some ⟨key, attempts, retryAt⟩,
        t.updatePending key (fun r => r.putOff attempts error retryAt) fun _ => rfl)

/-! ### Flushing -/

/-- `retry_at IS NULL OR retry_at <= now`, for a pending row. -/
abbrev DoorbellRow.Due (r : DoorbellRow) (now : Timestamp) : Prop :=
  r.Pending ∧ ∀ retryAt ∈ r.retryAt, retryAt ≤ now

/-- `COALESCE(retry_at, enqueued_at)`. -/
def DoorbellRow.dueAt (r : DoorbellRow) : Timestamp := r.retryAt.getD r.enqueuedAt

/-- `ORDER BY COALESCE(retry_at, enqueued_at), enqueued_at, event_uuid`. -/
def DoorbellRow.DueBefore (a b : DoorbellRow) : Prop :=
  a.dueAt < b.dueAt ∨ a.dueAt = b.dueAt ∧
    (a.enqueuedAt < b.enqueuedAt ∨ a.enqueuedAt = b.enqueuedAt ∧
      a.event.eventUuid ≤ b.event.eventUuid)

instance : DecidableRel DoorbellRow.DueBefore := fun a b => by
  unfold DoorbellRow.DueBefore
  infer_instance

/-- `due_wake_webhook_outbox`. -/
def DoorbellTable.dueWakeWebhookOutbox (t : DoorbellTable) (limit : ℕ) (now : Timestamp) :
    List DoorbellRow :=
  ((t.rows.filter fun r => r.Due now).insertionSort DoorbellRow.DueBefore).take limit

/-- The outside of a flush: which events are visible, which posts the host accepts, and the
clock. -/
structure DoorbellHost where
  visible : DoorbellRow → Bool
  accepts : DoorbellRow → Bool
  now : Timestamp
  utcAfter : ℕ → Timestamp

/-- The counters `flush_due` returns. -/
structure FlushSummary where
  attempted : ℕ
  delivered : ℕ
  retried : ℕ
  abandoned : ℕ

/-- One row of `flush_due`.  An exception of a mark is printed and passed over. -/
def DoorbellHost.flushRow (host : DoorbellHost) (s : FlushSummary × DoorbellTable)
    (row : DoorbellRow) : FlushSummary × DoorbellTable :=
  let (summary, t) := s
  if ¬ host.visible row then
    ({ summary with abandoned := summary.abandoned + 1 },
      (t.markWakeWebhookAbandoned row.key "no-longer-listen-visible" host.now).2)
  else
    let summary := { summary with attempted := summary.attempted + 1 }
    if host.accepts row then
      ({ summary with delivered := summary.delivered + 1 },
        (t.markWakeWebhookDelivered row.key host.now).2)
    else
      match t.markWakeWebhookRetry row.key "POST failed" host.utcAfter with
      | .ok (_, t') => ({ summary with retried := summary.retried + 1 }, t')
      | .error _ => (summary, t)

/-- `flush_due`, with a webhook configured. -/
def DoorbellHost.flushDue (host : DoorbellHost) (t : DoorbellTable) (limit : ℕ) :
    FlushSummary × DoorbellTable :=
  (t.dueWakeWebhookOutbox limit host.now).foldl host.flushRow (⟨0, 0, 0, 0⟩, t)

/-! ### The delay -/

theorem wakeWebhookDelay_succ (n : ℕ) :
    wakeWebhookDelay (n + 1) = if n < 1024 then some (min 60 (2 ^ n)) else none := by
  unfold wakeWebhookDelay
  rw [Nat.add_sub_cancel, Binary64.ofNat?_two_pow]
  split
  · simp [wakeWebhookOutboxRetryCapS, wakeWebhookOutboxRetryBaseS]
  · rfl

/-! ### Marking a failure -/

namespace DoorbellTable

variable {t : DoorbellTable} {row : DoorbellRow}

theorem pending?_of_mem (hr : row ∈ t) (hp : row.Pending) : t.pending? row.key = some row := by
  refine Table.find?_eq_of_unique hr (by simpa using hp) fun b hb hsel => ?_
  have hkey : b.key = row.key := (of_decide_eq_true hsel).1
  exact KeyedTable.eq_of_key hb hr hkey

theorem mem_updatePending_self (hr : row ∈ t) (hp : row.Pending)
    {f : DoorbellRow → DoorbellRow} (hf : ∀ r, (f r).key = r.key) :
    f row ∈ t.updatePending row.key f hf :=
  KeyedTable.mem_modify.mpr ⟨row, hr, if_pos ⟨rfl, hp⟩⟩

theorem mem_updatePending_of_ne {key : Recipient × EventId} (hr : row ∈ t)
    (hne : row.key ≠ key) {f : DoorbellRow → DoorbellRow} (hf : ∀ r, (f r).key = r.key) :
    row ∈ t.updatePending key f hf :=
  KeyedTable.mem_modify_of_eq _ hr (if_neg fun h => hne h.1)

theorem markWakeWebhookRetry_of_lt (hr : row ∈ t) (hp : row.Pending)
    (hn : row.deliveryAttempts < 1024) (error : String) (utcAfter : ℕ → Timestamp) :
    t.markWakeWebhookRetry row.key error utcAfter =
      .ok (some ⟨row.key, row.deliveryAttempts + 1,
          utcAfter (min 60 (2 ^ row.deliveryAttempts))⟩,
        t.updatePending row.key (fun r => r.putOff (row.deliveryAttempts + 1) error
          (utcAfter (min 60 (2 ^ row.deliveryAttempts)))) fun _ => rfl) := by
  simp only [markWakeWebhookRetry, pending?_of_mem hr hp, wakeWebhookDelay_succ, if_pos hn]

theorem markWakeWebhookRetry_of_ge (hr : row ∈ t) (hp : row.Pending)
    (hn : 1024 ≤ row.deliveryAttempts) (error : String) (utcAfter : ℕ → Timestamp) :
    t.markWakeWebhookRetry row.key error utcAfter = .error .overflowError := by
  simp only [markWakeWebhookRetry, pending?_of_mem hr hp, wakeWebhookDelay_succ,
    if_neg (not_lt.mpr hn)]

/-- **Backing off.**  The mark commits: the row counts one more failure and is put off for
`min 60 (2 ^ n)` seconds, and every other row is as it was. -/
def BacksOff (t : DoorbellTable) (row : DoorbellRow) (error : String)
    (utcAfter : ℕ → Timestamp) : Prop :=
  let attempts := row.deliveryAttempts + 1
  let retryAt := utcAfter (min 60 (2 ^ row.deliveryAttempts))
  ∃ t', t.markWakeWebhookRetry row.key error utcAfter =
      .ok (some ⟨row.key, attempts, retryAt⟩, t') ∧
    row.putOff attempts error retryAt ∈ t' ∧ ∀ r ∈ t, r.key ≠ row.key → r ∈ t'

end DoorbellTable

/-- **The doorbell backs off for 1024 failures.**  A pending row with `n` failures is put
off by the next one exactly when `n` is below 1024. -/
theorem doorbell_backsOff_iff {t : DoorbellTable} {row : DoorbellRow} (hr : row ∈ t)
    (hp : row.Pending) (error : String) (utcAfter : ℕ → Timestamp) :
    t.BacksOff row error utcAfter ↔ row.deliveryAttempts < 1024 := by
  constructor
  · rintro ⟨t', hmark, -⟩
    by_contra hge
    rw [DoorbellTable.markWakeWebhookRetry_of_ge hr hp (not_lt.mp hge)] at hmark
    cases hmark
  · intro hn
    refine ⟨_, DoorbellTable.markWakeWebhookRetry_of_lt hr hp hn error utcAfter, ?_,
      fun r hmem hne => DoorbellTable.mem_updatePending_of_ne hmem hne _⟩
    exact DoorbellTable.mem_updatePending_self hr hp _

/-- A doorbell row after `n` failures. -/
def failedDoorbell (n : ℕ) : DoorbellRow :=
  ⟨.label "ctl", ⟨"node", "e1"⟩, "d", 1, "result", "t0", "t0", none, n,
    if n = 0 then none else some "POST failed", if n = 0 then none else some "t1"⟩

/-- A table with that row. -/
def failedDoorbellTable (n : ℕ) : DoorbellTable :=
  ⟨[failedDoorbell n], List.pairwise_singleton _ _⟩

/-- The sixth failure puts the row off for half a minute. -/
theorem doorbell_backsOff_sixth :
    (failedDoorbellTable 5).BacksOff (failedDoorbell 5) "POST failed"
      fun s => "t" ++ toString s := by
  have hmem : failedDoorbell 5 ∈ failedDoorbellTable 5 := List.mem_cons_self
  exact (doorbell_backsOff_iff hmem rfl _ _).mpr (by decide)

/-- The failure after 1024 others raises. -/
theorem doorbell_overflow :
    ¬ (failedDoorbellTable 1024).BacksOff (failedDoorbell 1024) "POST failed"
      fun s => "t" ++ toString s := by
  rintro ⟨t', hmark, -⟩
  rw [DoorbellTable.markWakeWebhookRetry_of_ge List.mem_cons_self rfl (le_refl 1024)] at hmark
  cases hmark

/-! ### Any order of transactions -/

/-- A transaction of the outbox, of whichever flush or delivery. -/
inductive DoorbellAction
  | enqueue (row : DeliveryEvent) (now : Timestamp)
  | deliver (key : Recipient × EventId) (now : Timestamp)
  | abandon (key : Recipient × EventId) (reason : String) (now : Timestamp)
  | retry (key : Recipient × EventId) (error : String) (utcAfter : ℕ → Timestamp)

namespace DoorbellTable

variable {t : DoorbellTable} {r : DoorbellRow}

/-- One transaction; one that raises is rolled back. -/
def step (t : DoorbellTable) : DoorbellAction → DoorbellTable
  | .enqueue row now => t.enqueueWakeWebhookOutbox row now
  | .deliver key now => (t.markWakeWebhookDelivered key now).2
  | .abandon key reason now => (t.markWakeWebhookAbandoned key reason now).2
  | .retry key error utcAfter =>
    match t.markWakeWebhookRetry key error utcAfter with
    | .ok (_, t') => t'
    | .error _ => t

/-- A row of a flush is a transaction. -/
theorem flushRow_step (host : DoorbellHost) (s : FlushSummary × DoorbellTable) (row : DoorbellRow) :
    ∃ a, (host.flushRow s row).2 = s.2.step a := by
  obtain ⟨summary, t⟩ := s
  dsimp only [DoorbellHost.flushRow]
  split
  · exact ⟨.abandon row.key "no-longer-listen-visible" host.now, rfl⟩
  split
  · exact ⟨.deliver row.key host.now, rfl⟩
  · refine ⟨.retry row.key "POST failed" host.utcAfter, ?_⟩
    simp only [step]
    split <;> rfl

theorem mem_updatePending_of_ended {key : Recipient × EventId} (hr : r ∈ t)
    (hended : ¬ r.Pending) {f : DoorbellRow → DoorbellRow} (hf : ∀ r, (f r).key = r.key) :
    r ∈ t.updatePending key f hf :=
  KeyedTable.mem_modify_of_eq _ hr (if_neg fun h => hended h.2)

theorem mem_of_retry {key : Recipient × EventId} {error : String} {utcAfter : ℕ → Timestamp}
    {v : Option DoorbellRetry} {t' : DoorbellTable} (hr : r ∈ t) (hended : ¬ r.Pending)
    (h : t.markWakeWebhookRetry key error utcAfter = .ok (v, t')) : r ∈ t' := by
  unfold markWakeWebhookRetry at h
  split at h
  · cases h
    exact hr
  · dsimp only at h
    split at h
    · cases h
    · cases h
      exact mem_updatePending_of_ended hr hended _

theorem mem_step (hr : r ∈ t) (hended : ¬ r.Pending) (a : DoorbellAction) : r ∈ t.step a := by
  cases a with
  | enqueue row now =>
    show r ∈ (t.insert? _).getD t
    cases hinsert : t.insert? _ with
    | none => exact hr
    | some t' => exact (Table.mem_of_insert? hinsert).mpr (.inl hr)
  | deliver key now =>
    simp only [step, markWakeWebhookDelivered]
    exact mem_updatePending_of_ended hr hended _
  | abandon key reason now =>
    simp only [step, markWakeWebhookAbandoned]
    exact mem_updatePending_of_ended hr hended _
  | retry key error utcAfter =>
    simp only [step]
    split
    · rename_i hmark
      exact mem_of_retry hr hended hmark
    · exact hr

theorem mem_run (hr : r ∈ t) (hended : ¬ r.Pending) (actions : List DoorbellAction) :
    r ∈ Machine.run step t actions := by
  induction actions generalizing t with
  | nil => exact hr
  | cons a actions ih => exact ih (mem_step hr hended a)

end DoorbellTable

/-- **An event's doorbell ends once.**  Whatever transactions follow, in any order, a row that is
delivered or abandoned stays as it is, and its event is never due again. -/
theorem doorbell_ends_once (t : DoorbellTable) (actions : List DoorbellAction) :
    let t' := Machine.run DoorbellTable.step t actions
    (∀ r ∈ t, ¬ r.Pending → r ∈ t') ∧
      ∀ limit now, ∀ due ∈ t'.dueWakeWebhookOutbox limit now, ∀ r ∈ t, r.key = due.key →
        r.Pending := by
  refine ⟨fun r hr hended => DoorbellTable.mem_run hr hended actions,
    fun limit now due hdue r hr hkey => ?_⟩
  by_contra hended
  unfold DoorbellTable.dueWakeWebhookOutbox at hdue
  obtain ⟨hin, hdue⟩ := List.mem_filter.mp
    ((List.mem_insertionSort _).mp (List.mem_of_mem_take hdue))
  rw [KeyedTable.eq_of_key (DoorbellTable.mem_run hr hended actions) hin hkey] at hended
  exact hended (of_decide_eq_true hdue).1

end GoalFlight
