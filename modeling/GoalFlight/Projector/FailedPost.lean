import GoalFlight.Projector.World

/-!
# A post after a failed post

A post chooses its number from the carrier and records the assignment in the journal
before the carrier has the envelope.  When it stops in between, its assignment keeps a
number that the carrier does not know, and the next post is given that number again; the
live index on `(recipient_label, stream_id, stream_seq)` refuses it.
`postAfterFailure_iff` has the exact condition under which the next post goes through.
-/

namespace GoalFlight

open Relational

variable {w : World} {j : Journal} {recipient : Recipient} {a : Assignment} {q : PostRequest}

/-! ### The number a post takes -/

/-- The post takes the number: it brings the number and the number is above those in the
carrier, or it brings none above them and this is the next one. -/
def PostRequest.Takes (q : PostRequest) (c : Carriers) (n : ℕ) : Prop :=
  (highWater (c.stream q.streamId) < n ∧ q.providedSeq = some n) ∨
    (n = highWater (c.stream q.streamId) + 1 ∧
      ∀ seq ∈ q.providedSeq, seq ≤ highWater (c.stream q.streamId))

instance (q : PostRequest) (c : Carriers) (n : ℕ) : Decidable (q.Takes c n) := by
  unfold PostRequest.Takes
  infer_instance

theorem PostRequest.takes_iff {c : Carriers} {n : ℕ} :
    q.Takes c n ↔ n = admitStreamSeq q.providedSeq (c.stream q.streamId) := by
  unfold PostRequest.Takes admitStreamSeq
  cases q.providedSeq with
  | none => simp
  | some seq =>
    simp only [Option.some.injEq, Option.mem_def, forall_eq']
    split <;> omega

/-! ### When an assignment is recorded -/

/-- A new assignment of an event fits in the table when no live assignment has its
recipient and number. -/
theorem DeliveryTable.exists_insert?_iff {t : DeliveryTable}
    (hnew : t.get? a.recipient a.event = none) {rowid : ℕ}
    (hrowid : ∀ r ∈ t, r.rowid < rowid) :
    (∃ t', t.insert? (a.row rowid) = some t') ↔
      ∀ r ∈ t, r.recipient = a.recipient → r.Live → r.position ≠ (a.streamId, a.streamSeq) := by
  have hkey := DeliveryTable.get?_eq_none.mp hnew
  constructor
  · rintro ⟨t', ht'⟩ r hr hrec hlive hpos
    have hcompat := (Table.insert?_eq_some ht').1 r hr
    exact hcompat.livePosition ⟨hlive, rfl, Prod.ext hrec hpos⟩
  · intro hclear
    rw [← Option.isSome_iff_exists, Option.isSome_iff_ne_none]
    intro hnone
    obtain ⟨r, hr, hnot⟩ := Table.insert?_eq_none_iff.mp hnone
    refine hnot ⟨hrowid r hr, fun heq => ?_, fun ⟨hlive, _, heq⟩ => ?_⟩
    · exact hkey r hr ⟨congrArg Prod.fst heq, congrArg Prod.snd heq⟩
    · exact hclear r hr (congrArg Prod.fst heq) hlive (congrArg Prod.snd heq)

theorem DeliveryTable.get?_withdrawWhere_eq_none {t : DeliveryTable} {p : DeliveryEvent → Prop}
    [DecidablePred p] {event : EventId} (h : t.get? recipient event = none) (now : Timestamp) :
    (t.withdrawWhere p now).get? recipient event = none := by
  rw [DeliveryTable.get?_eq_none] at h ⊢
  intro r hr
  obtain ⟨x, hx, rfl⟩ := Table.exists_of_mem hr (t.rows_withdrawWhere p now)
  have hx' := h x hx
  split <;> exact hx'

/-- **When a record commits.**  The event has an assignment to the recipient that agrees,
or it has none and no live assignment has the number, those being replaced apart. -/
theorem recordDeliveryEvent_ok_iff {replaces : List (Recipient × EventId)} {fallback : Bool}
    {now : Timestamp} (hseq : 1 ≤ a.streamSeq) (hself : (a.recipient, a.event) ∉ replaces) :
    (∃ r, j.recordDeliveryEvent a replaces fallback now = .ok r) ↔
      (∃ row, j.delivery.get? (j.effectiveRecipient a.recipient fallback) a.event = some row ∧
        a.Agrees row) ∨
      (j.delivery.get? (j.effectiveRecipient a.recipient fallback) a.event = none ∧
        ∀ r ∈ j.delivery, r.recipient = j.effectiveRecipient a.recipient fallback → r.Live →
          ¬ Replaces replaces r → r.position ≠ (a.streamId, a.streamSeq)) := by
  generalize hrec : j.effectiveRecipient a.recipient fallback = recipient
  unfold Journal.recordDeliveryEvent
  rw [if_neg (Nat.not_lt.mpr hseq), if_neg hself]
  simp only [hrec]
  cases hget : j.delivery.get? recipient a.event with
  | some row =>
    simp only
    constructor
    · rintro ⟨r, hr⟩
      split at hr
      · exact .inl ⟨row, rfl, ‹_›⟩
      · cases hr
    · rintro (⟨_, heq, hagrees⟩ | ⟨hnone, -⟩)
      · cases heq
        exact ⟨_, if_pos hagrees⟩
      · cases hnone
  | none =>
    simp only
    have hinsert := DeliveryTable.exists_insert?_iff (a := { a with recipient := recipient })
      (DeliveryTable.get?_withdrawWhere_eq_none (p := Replaces replaces) hget now)
      fun r hr => DeliveryTable.rowid_lt_nextRowid hr
    have hclear : (∀ r ∈ j.delivery.withdrawWhere (Replaces replaces) now,
        r.recipient = recipient → r.Live → r.position ≠ (a.streamId, a.streamSeq)) ↔
        ∀ r ∈ j.delivery, r.recipient = recipient → r.Live → ¬ Replaces replaces r →
          r.position ≠ (a.streamId, a.streamSeq) := by
      constructor
      · intro h r hr hrecipient hlive hkept
        have hmem : r ∈ j.delivery.withdrawWhere (Replaces replaces) now ∧ r.Live :=
          DeliveryTable.mem_withdrawWhere_live.mpr ⟨hr, hlive, hkept⟩
        exact h r hmem.1 hrecipient hlive
      · intro h r hr hrecipient hlive
        obtain ⟨hr, -, hkept⟩ := DeliveryTable.mem_withdrawWhere_live.mp ⟨hr, hlive⟩
        exact h r hr hrecipient hlive hkept
    rw [← hclear, ← hinsert]
    constructor
    · rintro ⟨r, hr⟩
      split at hr
      · cases hr
      · exact .inr ⟨trivial, _, ‹_›⟩
    · rintro (⟨_, heq, -⟩ | ⟨-, inserted, hinserted⟩)
      · cases heq
      · rw [hinserted]
        exact ⟨_, rfl⟩

theorem recordDeliveryEvent_recorded {j' : Journal} {replaces : List (Recipient × EventId)}
    {fallback : Bool} {now : Timestamp} {v : DeliveryEvent}
    (h : j.recordDeliveryEvent a replaces fallback now = .ok (v, j')) :
    v.recipient = j.effectiveRecipient a.recipient fallback ∧
      ∃ r, j'.delivery.get? v.recipient a.event = some r ∧
        r.position = (a.streamId, a.streamSeq) := by
  unfold Journal.recordDeliveryEvent at h
  split at h
  · cases h
  split at h
  · cases h
  simp only at h
  split at h
  · rename_i existing hget
    obtain ⟨hmem, hrecipient, hevent⟩ := DeliveryTable.get?_eq_some.mp hget
    split at h
    · rename_i hagrees
      cases h
      have hmem' := Table.apply_mem
        (DeliveryTable.rows_withdrawWhere j.delivery (Replaces replaces) now) hmem
      have hposition : v.position = (a.streamId, a.streamSeq) :=
        Prod.ext hagrees.1 hagrees.2.1
      refine ⟨hrecipient, _, DeliveryTable.get?_eq_some.mpr ⟨hmem', ?_, ?_⟩, ?_⟩
      · split <;> rfl
      · split <;> exact hevent
      · split <;> exact hposition
    · cases h
  · split at h
    · cases h
    · rename_i inserted hinserted
      cases h
      refine ⟨rfl, _, DeliveryTable.get?_eq_some.mpr
        ⟨(Table.mem_of_insert? hinserted).mpr (.inr rfl), rfl, rfl⟩, rfl⟩

theorem markDeliveryProjected_marks {event : EventId} {r : DeliveryEvent}
    (h : j.delivery.get? recipient event = some r) (now : Timestamp) :
    ∃ v j', j.markDeliveryProjected recipient event now = .ok (v, j') ∧
      ∃ r' ∈ j'.delivery, r'.recipient = recipient ∧ r'.event = event ∧
        r'.position = r.position ∧ r'.Projected := by
  obtain ⟨hmem, hrecipient, hevent⟩ := DeliveryTable.get?_eq_some.mp h
  have htarget : j.projectionTarget recipient event = some r := by
    unfold Journal.projectionTarget
    rw [h]
  have hmem' := Table.apply_mem (DeliveryTable.rows_projectWhere j.delivery
    (fun x => x.recipient = r.recipient ∧ x.event = r.event) now) hmem
  rw [if_pos ⟨rfl, rfl⟩] at hmem'
  unfold Journal.markDeliveryProjected
  rw [htarget]
  refine ⟨_, _, rfl, r.project now, ?_, hrecipient, hevent, rfl, r.projected_project now⟩
  simp only
  split <;> exact hmem'

/-! ### A post that is not interrupted -/

/-- What is claimed of a post: its envelope is in the carrier, and the recipient has the
event's assignment, with the envelope's number and projected. -/
def World.Carries (w : World) (q : PostRequest) (recipient : Recipient) : Prop :=
  ∃ e ∈ w.carriers, e.streamId = q.streamId ∧ e.event = q.event ∧
    ∃ r ∈ w.journal.delivery.rows, r.recipient = recipient ∧ r.event = q.event ∧
      r.position = (q.streamId, e.seq) ∧ r.Projected

instance (w : World) (q : PostRequest) (recipient : Recipient) :
    Decidable (w.Carries q recipient) := by
  unfold World.Carries
  infer_instance

/-- The state has room for the post: the event's own assignment to the recipient, if an
earlier post left one, agrees and has the number taken; if there is none, no live
assignment has the number, those the post replaces apart. -/
def World.HasRoom (w : World) (q : PostRequest) (recipient : Recipient) : Prop :=
  (∃ row ∈ w.journal.delivery.rows, row.recipient = recipient ∧ row.event = q.event ∧
    q.Takes w.carriers row.streamSeq ∧ (q.assignment recipient row.streamSeq).Agrees row) ∨
  ((∀ row ∈ w.journal.delivery.rows, ¬ (row.recipient = recipient ∧ row.event = q.event)) ∧
    ∀ r ∈ w.journal.delivery.rows, r.recipient = recipient → r.Live → r.streamId = q.streamId →
      ¬ Replaces q.replaces r → ¬ q.Takes w.carriers r.streamSeq)

instance (w : World) (q : PostRequest) (recipient : Recipient) :
    Decidable (w.HasRoom q recipient) := by
  unfold World.HasRoom
  infer_instance

/-- The post from the lock to its return, one stage after the other. -/
def World.runPost (w : World) (q : PostRequest) (recordedAt markedAt : Timestamp) : World :=
  Machine.run World.step w
    [.startPost q, .post w.posts.length recordedAt, .post w.posts.length recordedAt,
      .post w.posts.length markedAt, .post w.posts.length markedAt]

theorem World.step_post_last (w : World) (posts : List Post) (p : Post) (now : Timestamp) :
    World.step { w with posts := posts ++ [p] } (.post posts.length now) =
      match World.postStage { w with posts := posts ++ [p] } p now with
      | (w', some p') => { w' with posts := posts ++ [p'] }
      | (w', none) => { w' with posts := posts } := by
  have hget : (posts ++ [p])[posts.length]? = some p := by simp
  simp only [World.step, hget]
  rcases World.postStage { w with posts := posts ++ [p] } p now with ⟨w', _ | p'⟩
  · simp [List.eraseIdx_append_of_length_le]
  · simp

theorem World.step_post_length (w : World) (now : Timestamp) :
    w.step (.post w.posts.length now) = w := by
  have hget : w.posts[w.posts.length]? = none := by simp
  simp only [World.step, hget]

/-- **A post to one recipient.**  A refused record leaves everything as it was; after a
record the envelope is appended and the assignment marked. -/
theorem World.runPost_eq {requireActive : Bool}
    (htargets : q.targets = [(recipient, requireActive)]) (hlock : w.locked q.streamId = false)
    (hnew : w.carriers.identity? q.streamId q.event = none) (recordedAt markedAt : Timestamp) :
    let seq := admitStreamSeq q.providedSeq (w.carriers.stream q.streamId)
    match w.journal.recordDeliveryEvent (q.assignment recipient seq) q.replaces requireActive
        recordedAt with
    | .error _ => w.runPost q recordedAt markedAt = w
    | .ok (r, j) =>
      ∀ v j', j.markDeliveryProjected r.recipient q.event markedAt = .ok (v, j') →
        w.runPost q recordedAt markedAt =
          { ({ w.commit j with carriers := q.write w.carriers seq }).commit j' with
            posts := w.posts } := by
  intro seq
  have hopen : w.openPost q = some ⟨q, .record seq false q.targets []⟩ := by
    unfold World.openPost
    rw [hlock, if_neg Bool.false_ne_true, hnew]
  have hstart : w.step (.startPost q) = { w with
      posts := w.posts ++ [⟨q, .record seq false q.targets []⟩] } := by
    simp only [World.step, hopen]
  unfold World.runPost
  rw [Machine.run_cons, hstart, Machine.run_cons, World.step_post_last, htargets]
  unfold World.postStage
  simp only
  cases hrecord : w.journal.recordDeliveryEvent (q.assignment recipient seq) q.replaces
      requireActive recordedAt with
  | error e =>
    simp only [Bool.false_eq_true, if_false, hrecord]
    show Machine.run World.step w _ = w
    simp only [Machine.run_cons, World.step_post_length, Machine.run_nil]
  | ok r =>
    obtain ⟨r, j⟩ := r
    intro v j' hmark
    simp only [Bool.false_eq_true, if_false, hrecord]
    -- The append.
    show Machine.run World.step { w.commit j with
        posts := w.posts ++ [⟨q, .record seq false [] [r.recipient]⟩] } _ = _
    rw [Machine.run_cons, World.step_post_last]
    show Machine.run World.step { w.commit j with
        carriers := q.write w.carriers seq
        posts := w.posts ++ [⟨q, .mark [r.recipient]⟩] } _ = _
    -- The mark.
    rw [Machine.run_cons]
    rw [World.step_post_last { w.commit j with carriers := q.write w.carriers seq }]
    unfold World.postStage
    simp only [World.commit, hmark]
    rw [Machine.run_cons]
    exact World.step_post_last ⟨j', q.write w.carriers seq, w.passes, w.posts, _⟩ w.posts
      ⟨q, .mark []⟩ markedAt

theorem World.not_carries_of_new (hnew : w.carriers.identity? q.streamId q.event = none) :
    ¬ w.Carries q recipient := by
  rintro ⟨e, he, hstream, hevent, -⟩
  have hmem : e ∈ w.carriers.stream q.streamId :=
    List.mem_filter.mpr ⟨he, decide_eq_true hstream⟩
  exact List.find?_eq_none.mp hnew e hmem (decide_eq_true hevent)

theorem World.hasRoom_iff {requireActive : Bool} (hreplaces : ∀ k ∈ q.replaces, k.2 ≠ q.event)
    (now : Timestamp) :
    w.HasRoom q (w.journal.effectiveRecipient recipient requireActive) ↔
      ∃ r, w.journal.recordDeliveryEvent (q.assignment recipient
        (admitStreamSeq q.providedSeq (w.carriers.stream q.streamId))) q.replaces requireActive
        now = .ok r := by
  have hseq := highWater_lt_admitStreamSeq q.providedSeq (w.carriers.stream q.streamId)
  rw [recordDeliveryEvent_ok_iff (Nat.one_le_of_lt hseq) fun hself => hreplaces _ hself rfl]
  unfold World.HasRoom
  simp only [PostRequest.takes_iff]
  refine or_congr ⟨?_, ?_⟩ ⟨?_, ?_⟩
  · rintro ⟨row, hmem, hrecipient, hevent, hnumber, hagrees⟩
    rw [hnumber] at hagrees
    exact ⟨row, DeliveryTable.get?_eq_some.mpr ⟨hmem, hrecipient, hevent⟩, hagrees⟩
  · rintro ⟨row, hget, hagrees⟩
    obtain ⟨hmem, hrecipient, hevent⟩ := DeliveryTable.get?_eq_some.mp hget
    have hnumber := hagrees.2.1
    refine ⟨row, hmem, hrecipient, hevent, hnumber, ?_⟩
    rw [hnumber]
    exact hagrees
  · rintro ⟨hnone, hclear⟩
    refine ⟨DeliveryTable.get?_eq_none.mpr hnone, fun r hr hrecipient hlive hkept hpos => ?_⟩
    obtain ⟨hstream, hnumber⟩ := Prod.mk.injEq _ _ _ _ ▸ hpos
    exact hclear r hr hrecipient hlive hstream hkept hnumber
  · rintro ⟨hnone, hclear⟩
    refine ⟨DeliveryTable.get?_eq_none.mp hnone, ?_⟩
    intro r hr hrecipient hlive hstream hkept hnumber
    exact hclear r hr hrecipient hlive hkept (Prod.ext hstream hnumber)

/-- **A post after a failed post.**  From any state, a post of an event that the carrier
does not have yet, to one recipient, is appended, recorded and projected exactly when the
state has room for it. -/
theorem postAfterFailure_iff {w : World} {q : PostRequest} {recipient : Recipient}
    {requireActive : Bool} (htargets : q.targets = [(recipient, requireActive)])
    (hlock : w.locked q.streamId = false)
    (hnew : w.carriers.identity? q.streamId q.event = none)
    (hreplaces : ∀ k ∈ q.replaces, k.2 ≠ q.event) (recordedAt markedAt : Timestamp) :
    (w.runPost q recordedAt markedAt).Carries q
        (w.journal.effectiveRecipient recipient requireActive) ↔
      w.HasRoom q (w.journal.effectiveRecipient recipient requireActive) := by
  have hrun := World.runPost_eq htargets hlock hnew recordedAt markedAt
  rw [World.hasRoom_iff hreplaces recordedAt]
  generalize hseq : admitStreamSeq q.providedSeq (w.carriers.stream q.streamId) = seq at *
  simp only at hrun
  split at hrun
  · rename_i hrefused
    rw [hrun, hrefused]
    refine ⟨fun h => absurd h (World.not_carries_of_new hnew), ?_⟩
    rintro ⟨r, hr⟩
    cases hr
  · rename_i r j hrecord
    obtain ⟨hrecipient, x, hx, hposition⟩ := recordDeliveryEvent_recorded hrecord
    obtain ⟨v, j', hmark, r', hr', hrecipient', hevent, hposition', hprojected⟩ :=
      markDeliveryProjected_marks hx markedAt
    rw [hrun v j' hmark]
    refine ⟨fun _ => ⟨_, hrecord⟩, fun _ => ?_⟩
    refine ⟨⟨q.streamId, seq, q.event, q.eventType, q.createdAt⟩, ?_, rfl, rfl, r', hr',
      hrecipient'.trans hrecipient, hevent, hposition'.trans hposition, hprojected⟩
    exact List.mem_append_right _ (List.mem_singleton_self _)

/-- The first post stopped with its envelope in the carrier; the next one gets number 2. -/
theorem postAfterFailure_goesThrough :
    let claim : Action := .journal (.claimOrRenewLease ⟨"ctl", ⟨some 1, some "s", none⟩, some "n1",
      false, none, "f", "i", "t0", "t0", "t9"⟩)
    let request (id : String) : PostRequest :=
      ⟨"d", ⟨"node", id⟩, "result", .waking, "t1", none, [(.label "ctl", false)], []⟩
    let w := Machine.run World.step World.fresh
      [claim, .startPost (request "e1"), .post 0 "t2", .post 0 "t2", .stopPost 0]
    (w.runPost (request "e2") "t3" "t4").Carries (request "e2") (.label "ctl") := by
  intro claim request w
  exact (postAfterFailure_iff (w := w) (q := request "e2") rfl (by decide +kernel)
    (by decide +kernel) (by decide +kernel) "t3" "t4").mpr (by decide +kernel)

/-- A stream a failed post blocks.  The first post records its assignment and stops before
the append; the next post of another event is given its number and is refused. -/
theorem postAfterFailure_refused :
    let claim : Action := .journal (.claimOrRenewLease ⟨"ctl", ⟨some 1, some "s", none⟩, some "n1",
      false, none, "f", "i", "t0", "t0", "t9"⟩)
    let request (id : String) : PostRequest :=
      ⟨"d", ⟨"node", id⟩, "result", .waking, "t1", none, [(.label "ctl", false)], []⟩
    let w := Machine.run World.step World.fresh
      [claim, .startPost (request "e1"), .post 0 "t2", .stopPost 0]
    ¬ (w.runPost (request "e2") "t3" "t4").Carries (request "e2") (.label "ctl") := by
  decide +kernel

end GoalFlight
