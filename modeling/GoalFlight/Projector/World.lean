import GoalFlight.Journal.Operation
import GoalFlight.Messages.Carrier

/-!
# Projector passes and posts

A pass of `project_terminal_outbox` appends the carrier record, reads the attempt's owner and the
roster, records and marks one assignment for each recipient, reconciles, and marks the outbox row
projected.  `post_message` records the assignments, appends the carrier record and marks the
assignments, under the lock of its stream.

A *world* is one journal, the carriers and every pass and post in flight, each at the stage it has
reached.  A list of actions is any interleaving of their stages with any crash.
-/

namespace GoalFlight

open Relational

/-! ### Passes -/

/-- Where a pass stands with the outbox row it works on. -/
inductive PassStage
  /-- Before the carrier append. -/
  | append
  /-- Before the attempt's owner and its lease are read. -/
  | owner (seq : ℕ)
  /-- Before the roster is read, for an attempt without an active owner. -/
  | roster (seq : ℕ)
  /-- Recipients left to record, each with whether its lease must be active; the
  recipients that were marked so far. -/
  | record (seq : ℕ) (left : List (Recipient × Bool)) (actual : List Recipient)
  /-- An assignment recorded and not marked. -/
  | mark (seq : ℕ) (recipient : Recipient) (left : List (Recipient × Bool))
      (actual : List Recipient)
  /-- Every recipient marked. -/
  | reconcile (actual : List Recipient)
  /-- Reconciled; the outbox row is not marked yet. -/
  | finish
  /-- An exception was raised; the failure is not recorded yet. -/
  | fail (error : String)

/-- A pass of `project_terminal_outbox`: the rows it has left, the first being worked
on. -/
structure Pass where
  rows : List TerminalOutboxRow
  stage : PassStage

/-- The pass goes on to its next row. -/
def Pass.next (p : Pass) : Pass := ⟨p.rows.tail, .append⟩

/-- An exception at a stage: the failure is to be recorded, and a failed final update or
failure record is passed over. -/
def Pass.interrupt (p : Pass) (error : String) : Pass :=
  match p.stage with
  | .finish => p.next
  | .fail _ => p.next
  | _ => { p with stage := .fail error }

/-! ### Posts -/

/-- The arguments of `post_message` for journal delivery, with the recipients
`_journal_delivery_targets` reads.  `replaces` names the envelopes `replace_if` selects,
by recipient and event. -/
structure PostRequest where
  streamId : String
  event : EventId
  eventType : String
  wakeClass : WakeClass
  createdAt : Timestamp
  providedSeq : Option ℕ
  targets : List (Recipient × Bool)
  replaces : List (Recipient × EventId)

/-- Where a post stands. -/
inductive PostStage
  /-- Recipients left to record; the recipients assigned so far.  `recorded` says that the
  carrier has the envelope already. -/
  | record (seq : ℕ) (recorded : Bool) (left : List (Recipient × Bool))
      (assigned : List Recipient)
  /-- The envelope is in the carrier; assignments left to mark. -/
  | mark (left : List Recipient)

/-- A `post_message` call that holds its stream's lock. -/
structure Post where
  request : PostRequest
  stage : PostStage

/-- The assignment a post records for one recipient. -/
def PostRequest.assignment (q : PostRequest) (recipient : Recipient) (seq : ℕ) : Assignment where
  recipient := recipient
  event := q.event
  streamId := q.streamId
  streamSeq := seq
  carrierPath := inboxPath q.streamId
  eventType := q.eventType
  wakeClass := q.wakeClass
  createdAt := q.createdAt

/-- The assignment a pass records for one recipient. -/
def TerminalOutboxRow.assignment (o : TerminalOutboxRow) (recipient : Recipient) (seq : ℕ) :
    Assignment where
  recipient := recipient
  event := o.event
  streamId := o.recipient
  streamSeq := seq
  carrierPath := inboxPath o.recipient
  eventType := o.eventType
  wakeClass := .waking
  createdAt := o.createdAt

/-! ### The world -/

/-- The journal, the carriers, and what is in flight.  `consumed` lists the events of
which a cursor was moved past a live projected row. -/
structure World where
  journal : Journal
  carriers : Carriers
  passes : List Pass
  posts : List Post
  consumed : List EventId

/-- Nothing has happened yet. -/
def World.fresh : World := ⟨Journal.fresh, [], [], [], []⟩

/-- Between two journals some cursor moved past the row, which was live and projected. -/
def MovedPast (j j' : Journal) (r : DeliveryEvent) : Prop :=
  r.Live ∧ r.Projected ∧ ∃ c ∈ j'.streamCursors.rows, r.AddressedTo c.label ∧
    c.streamId = r.streamId ∧ j.position c.label r.streamId < r.streamSeq ∧
      r.streamSeq ≤ c.position

instance (j j' : Journal) (r : DeliveryEvent) : Decidable (MovedPast j j' r) := by
  unfold MovedPast
  infer_instance

/-- A transaction commits. -/
def World.commit (w : World) (j' : Journal) : World :=
  { w with
    journal := j'
    consumed := w.consumed ++
      (w.journal.delivery.rows.filter fun r => MovedPast w.journal j' r).map
        DeliveryEvent.event }

/-- A post on the stream holds the carrier lock. -/
def World.locked (w : World) (stream : String) : Bool :=
  w.posts.any fun p => p.request.streamId = stream

/-- The active owner of an attempt: `owner_controller_label`, if it has a lease. -/
def Journal.activeOwner (j : Journal) (attemptId : String) : Option Label :=
  ((j.attempt attemptId).bind DispatchAttempt.ownerControllerLabel).filter fun label =>
    (j.activeLease label).isSome

/-- The recipients of an unowned terminal: the labels of the `ACTIVE` leases, or the
wildcard. -/
def Journal.rosterTargets (j : Journal) : List (Recipient × Bool) :=
  let labels := ((j.leases.rows.filter fun l => l.Active).map
    ControllerLease.label).insertionSort (· ≤ ·)
  if labels = [] then [(.wildcard, false)] else labels.map fun label => (.label label, true)

/-- One stage of a pass on the row it works on. -/
def World.passStage (w : World) (p : Pass) (row : TerminalOutboxRow)
    (now retryAt : Timestamp) : World × Pass :=
  match p.stage with
  | .append =>
    if w.locked row.recipient then (w, p)
    else
      match w.carriers.append? row.recipient row.event row.eventType row.createdAt with
      | none => (w, p.interrupt "event identity integrity conflict")
      | some (seq, carriers) => ({ w with carriers := carriers }, { p with stage := .owner seq })
  | .owner seq =>
    match w.journal.activeOwner row.attemptId with
    | some label => (w, { p with stage := .record seq [(.label label, true)] [] })
    | none => (w, { p with stage := .roster seq })
  | .roster seq => (w, { p with stage := .record seq w.journal.rosterTargets [] })
  | .record _ [] actual => (w, { p with stage := .reconcile actual })
  | .record seq ((recipient, requireActive) :: left) actual =>
    match w.journal.recordDeliveryEvent (row.assignment recipient seq) [] requireActive
        now with
    | .error _ => (w, p.interrupt "terminal delivery assignment was not committed")
    | .ok (r, j') => (w.commit j', { p with stage := .mark seq r.recipient left actual })
  | .mark seq recipient left actual =>
    match w.journal.markDeliveryProjected recipient row.event now with
    | .error _ => (w, p.interrupt "terminal delivery projection was not committed")
    | .ok (v, j') =>
      (w.commit j', { p with stage := .record seq left (actual ++ [v.row.recipient]) })
  | .reconcile actual =>
    match w.journal.reconcileTerminalDeliveryRecipients row.event actual now with
    | .error _ => (w, p.interrupt "stale terminal delivery reconciliation was not committed")
    | .ok (_, j') => (w.commit j', { p with stage := .finish })
  | .finish =>
    match w.journal.markOutboxProjected row now with
    | .error _ => (w, p.next)
    | .ok (_, j') => (w.commit j', p.next)
  | .fail error =>
    match w.journal.recordOutboxProjectionFailure row error now retryAt with
    | .error _ => (w, p.next)
    | .ok (_, j') => (w.commit j', p.next)

/-- The carriers after a post's write: appended to, or rewritten without the replaced
envelopes. -/
def PostRequest.write (q : PostRequest) (c : Carriers) (seq : ℕ) : Carriers :=
  (c.filter fun e => ¬ (e.streamId = q.streamId ∧ e.event ∈ q.replaces.map Prod.snd)) ++
    [⟨q.streamId, seq, q.event, q.eventType, q.createdAt⟩]

/-- One stage of a post.  Without a post in the result the call is over: it returned, or
it raised. -/
def World.postStage (w : World) (p : Post) (now : Timestamp) : World × Option Post :=
  match p.stage with
  | .record seq recorded ((recipient, requireActive) :: left) assigned =>
    match w.journal.recordDeliveryEvent (p.request.assignment recipient seq)
        (if recorded then [] else p.request.replaces) requireActive now with
    | .error _ => (w, none)
    | .ok (r, j') =>
      (w.commit j',
        some { p with stage := .record seq recorded left (assigned ++ [r.recipient]) })
  | .record seq recorded [] assigned =>
    (if recorded then w else { w with carriers := p.request.write w.carriers seq },
      some { p with stage := .mark assigned })
  | .mark (recipient :: left) =>
    match w.journal.markDeliveryProjected recipient p.request.event now with
    | .error _ => (w, none)
    | .ok (_, j') => (w.commit j', some { p with stage := .mark left })
  | .mark [] => (w, none)

/-- A post takes its stream's lock, and its number: the one the envelope has, or the next
admitted one. -/
def World.openPost (w : World) (q : PostRequest) : Option Post :=
  if w.locked q.streamId then none
  else
    match w.carriers.identity? q.streamId q.event with
    | some e =>
      if e.eventType = q.eventType ∧ e.createdAt = q.createdAt then
        some ⟨q, .record e.seq true q.targets []⟩
      else none
    | none =>
      some ⟨q, .record (admitStreamSeq q.providedSeq (w.carriers.stream q.streamId)) false
        q.targets []⟩

/-! ### Actions -/

/-- A transaction that is not part of a pass or a post. -/
def JournalOp.independent : JournalOp → Bool
  | .recordDeliveryEvent .. => false
  | .markDeliveryProjected .. => false
  | .withdrawDeliveryEvent .. => false
  | .reconcileTerminalDeliveryRecipients .. => false
  | .markOutboxProjected .. => false
  | .recordOutboxProjectionFailure .. => false
  | _ => true

/-- What can happen next. -/
inductive Action
  /-- Some process runs an independent transaction. -/
  | journal (op : JournalOp)
  /-- A pass starts with pending outbox rows it has read. -/
  | startPass (rows : List TerminalOutboxRow)
  /-- A pass takes its stage. -/
  | pass (i : ℕ) (now retryAt : Timestamp)
  /-- An exception ends a pass's stage: a `RETRYABLE` write, a carrier error. -/
  | interruptPass (i : ℕ) (error : String)
  /-- A pass's process dies. -/
  | crashPass (i : ℕ)
  /-- A post takes its stream's lock. -/
  | startPost (request : PostRequest)
  /-- A post takes its stage. -/
  | post (i : ℕ) (now : Timestamp)
  /-- A post's process dies, or an exception ends it. -/
  | stopPost (i : ℕ)

/-- One action.  An action that cannot happen changes nothing. -/
def World.step (w : World) : Action → World
  | .journal op => if op.independent then w.commit (w.journal.step op) else w
  | .startPass rows =>
    if ∀ row ∈ rows, row ∈ w.journal.outbox.rows ∧ row.Pending then
      { w with passes := w.passes ++ [⟨rows, .append⟩] }
    else w
  | .pass i now retryAt =>
    match w.passes[i]? with
    | none => w
    | some p =>
      match p.rows with
      | [] => w
      | row :: _ =>
        let (w', p') := w.passStage p row now retryAt
        { w' with passes := w.passes.set i p' }
  | .interruptPass i error =>
    match w.passes[i]? with
    | none => w
    | some p => { w with passes := w.passes.set i (p.interrupt error) }
  | .crashPass i => { w with passes := w.passes.eraseIdx i }
  | .startPost request =>
    match w.openPost request with
    | none => w
    | some p => { w with posts := w.posts ++ [p] }
  | .post i now =>
    match w.posts[i]? with
    | none => w
    | some p =>
      match w.postStage p now with
      | (w', some p') => { w' with posts := w.posts.set i p' }
      | (w', none) => { w' with posts := w.posts.eraseIdx i }
  | .stopPost i => { w with posts := w.posts.eraseIdx i }

/-! ### The journal of a world

Whatever passes and posts are in flight, the journal of a world moves by transactions of
`JournalOp`, so a run of the world is a run of the journal. -/

/-- The transaction a pass's stage runs. -/
def Pass.transaction (p : Pass) (row : TerminalOutboxRow) (now retryAt : Timestamp) :
    Option JournalOp :=
  match p.stage with
  | .record seq ((recipient, requireActive) :: _) _ =>
    some (.recordDeliveryEvent (row.assignment recipient seq) [] requireActive now)
  | .mark _ recipient _ _ => some (.markDeliveryProjected recipient row.event now)
  | .reconcile actual => some (.reconcileTerminalDeliveryRecipients row.event actual now)
  | .finish => some (.markOutboxProjected row now)
  | .fail error => some (.recordOutboxProjectionFailure row error now retryAt)
  | _ => none

/-- The transaction a post's stage runs. -/
def Post.transaction (p : Post) (now : Timestamp) : Option JournalOp :=
  match p.stage with
  | .record seq recorded ((recipient, requireActive) :: _) _ =>
    some (.recordDeliveryEvent (p.request.assignment recipient seq)
      (if recorded then [] else p.request.replaces) requireActive now)
  | .mark (recipient :: _) => some (.markDeliveryProjected recipient p.request.event now)
  | _ => none

/-- The transaction an action runs. -/
def World.transaction (w : World) : Action → Option JournalOp
  | .journal op => if op.independent then some op else none
  | .pass i now retryAt =>
    match w.passes[i]? with
    | none => none
    | some p =>
      match p.rows with
      | [] => none
      | row :: _ => p.transaction row now retryAt
  | .post i now =>
    match w.posts[i]? with
    | none => none
    | some p => p.transaction now
  | _ => none

/-- The journal after the transaction, if there is one. -/
def Journal.after (j : Journal) (op : Option JournalOp) : Journal := op.elim j j.step

theorem Journal.after_ok {α : Type} {j j' : Journal} {op : JournalOp} {x : Tx α} {v : α}
    (hrun : op.run j = x.committed) (hx : x = .ok (v, j')) : j.after (some op) = j' := by
  show j.step op = j'
  rw [Journal.step, hrun, hx]
  rfl

theorem Journal.after_error {α : Type} {j : Journal} {op : JournalOp} {x : Tx α} {e : Abort}
    (hrun : op.run j = x.committed) (hx : x = .error e) : j.after (some op) = j := by
  show j.step op = j
  rw [Journal.step, hrun, hx]
  rfl

theorem World.passStage_journal (w : World) (p : Pass) (row : TerminalOutboxRow)
    (now retryAt : Timestamp) :
    (w.passStage p row now retryAt).1.journal =
      w.journal.after (p.transaction row now retryAt) := by
  obtain ⟨rows, stage⟩ := p
  unfold World.passStage
  cases stage with
  | append =>
    simp only
    split
    · rfl
    · split <;> rfl
  | owner seq =>
    simp only
    split <;> rfl
  | roster seq => rfl
  | record seq left actual =>
    cases left with
    | nil => rfl
    | cons target left =>
      simp only
      split
      · exact (Journal.after_error rfl ‹_›).symm
      · exact (Journal.after_ok rfl ‹_›).symm
  | mark seq recipient left actual =>
    simp only
    split
    · exact (Journal.after_error rfl ‹_›).symm
    · exact (Journal.after_ok rfl ‹_›).symm
  | reconcile actual =>
    simp only
    split
    · exact (Journal.after_error rfl ‹_›).symm
    · exact (Journal.after_ok rfl ‹_›).symm
  | finish =>
    simp only
    split
    · exact (Journal.after_error rfl ‹_›).symm
    · exact (Journal.after_ok rfl ‹_›).symm
  | fail error =>
    simp only
    split
    · exact (Journal.after_error rfl ‹_›).symm
    · exact (Journal.after_ok rfl ‹_›).symm

theorem World.postStage_journal (w : World) (p : Post) (now : Timestamp) :
    (w.postStage p now).1.journal = w.journal.after (p.transaction now) := by
  obtain ⟨q, stage⟩ := p
  unfold World.postStage
  cases stage with
  | record seq recorded left assigned =>
    cases left with
    | nil =>
      simp only
      split <;> rfl
    | cons target left =>
      simp only
      split
      · exact (Journal.after_error rfl ‹_›).symm
      · exact (Journal.after_ok rfl ‹_›).symm
  | mark left =>
    cases left with
    | nil => rfl
    | cons recipient left =>
      simp only
      split
      · exact (Journal.after_error rfl ‹_›).symm
      · exact (Journal.after_ok rfl ‹_›).symm

/-- **A step of the world is a transaction of the journal**, or leaves it alone. -/
theorem World.step_journal (w : World) (a : Action) :
    (w.step a).journal = w.journal.after (w.transaction a) := by
  cases a with
  | journal op =>
    simp only [World.step, World.transaction]
    split <;> rfl
  | startPass rows =>
    simp only [World.step, World.transaction]
    split <;> rfl
  | pass i now retryAt =>
    simp only [World.step, World.transaction]
    split
    · rfl
    · split
      · rfl
      · exact w.passStage_journal _ _ now retryAt
  | interruptPass i error =>
    simp only [World.step, World.transaction]
    split <;> rfl
  | crashPass i => rfl
  | startPost request =>
    simp only [World.step, World.transaction]
    split <;> rfl
  | post i now =>
    simp only [World.step, World.transaction]
    split
    · rfl
    · rename_i p _
      have hstage := w.postStage_journal p now
      split <;> rename_i heq <;> rw [heq] at hstage <;> exact hstage
  | stopPost i => rfl

end GoalFlight
