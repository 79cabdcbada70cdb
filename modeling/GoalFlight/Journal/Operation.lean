import GoalFlight.Journal.Outbox
import GoalFlight.Library.Machine

/-!
# Runs of the journal

Every writer takes the write lock and runs its transaction under `BEGIN IMMEDIATE`, so
what any number of processes do to one journal is a sequence of whole transactions.
`JournalOp` has one constructor for each transaction, with the arguments and the values
it draws; a transaction that aborts leaves the journal as it was.
-/

namespace GoalFlight

variable {j j' : Journal} {R : DeliveryTable → DeliveryTable → Prop}

/-- One transaction of one process. -/
inductive JournalOp
  | recordDeliveryEvent (a : Assignment) (replaces : List (Recipient × EventId))
      (fallbackToWildcardIfInactive : Bool) (now : Timestamp)
  | markDeliveryProjected (recipient : Recipient) (event : EventId) (now : Timestamp)
  | withdrawDeliveryEvent (recipient : Recipient) (event : EventId) (now : Timestamp)
  | reconcileTerminalDeliveryRecipients (event : EventId) (requested : List Recipient)
      (now : Timestamp)
  | expireStaleLeases (provenDead : List ProvenDead) (endedAt : Timestamp)
  | renewActiveLease (label : Label) (nonce : String) (generation : ℕ)
      (renewDeadlineAt : Timestamp)
  | claimOrRenewLease (claim : LeaseClaim)
  | releaseLease (label : Label) (nonce reason : String) (now : Timestamp)
  | armListener (label : Label) (nonce : String) (pid : ℕ) (startToken : String)
      (parentPid : ℕ) (coverageId : String) (now : Timestamp)
  | exitListener (coverageId reason itemId : String) (now : Timestamp)
  | setCursor (label : Label) (positions : Option (Dict ℕ)) (actor : String)
      (now : Timestamp)
  | advanceCursor (label : Label) (nonce : Option String) (expectedCursorVersion : ℕ)
      (expectedStreamSnapshots : Dict String) (advances : Dict ℕ) (actor : String)
      (allowNoLease : Bool) (now : Timestamp)
  | prepareAttempt (request : AttemptRequest)
  | rebindPreparedAttemptAccount (dispatchId : String)
      (expectedEffectiveAccount : Option String) (effectiveAccount : String)
      (engine : Option String)
  | startAttempt (attemptId launchToken : String) (expectedLaunchEpoch : ℕ)
      (now startDeadline : Timestamp)
  | markAttemptRunning (attemptId launchToken : String) (launchEpoch : ℕ)
      (workerInstance : String) (now : Timestamp)
  | commitTerminal (request : TerminalRequest)
  | markOutboxProjected (row : TerminalOutboxRow) (now : Timestamp)
  | recordOutboxProjectionFailure (row : TerminalOutboxRow) (error : String)
      (now retryAt : Timestamp)
  | recordSystemAttention (itemType reason dedupeNamespace dedupeKey dispatchId : String)
      (now : Timestamp)
  | resolveSystemAttention (itemType dispatchId : String) (keepReason : Option String)
      (now : Timestamp)

variable {op : JournalOp}

/-- The journal a transaction commits. -/
def Tx.committed {α : Type} (x : Tx α) : Except Abort Journal := x.map Prod.snd

theorem Tx.committed_eq_ok {α : Type} {x : Tx α} :
    x.committed = .ok j ↔ ∃ a, x = .ok (a, j) := by
  cases x with
  | error e => simp [Tx.committed, Except.map]
  | ok p => simp [Tx.committed, Except.map, Prod.ext_iff, eq_comm]

/-- The transaction, without its value. -/
def JournalOp.run (j : Journal) : JournalOp → Except Abort Journal
  | .recordDeliveryEvent a replaces fallback now =>
    (j.recordDeliveryEvent a replaces fallback now).committed
  | .markDeliveryProjected recipient event now =>
    (j.markDeliveryProjected recipient event now).committed
  | .withdrawDeliveryEvent recipient event now =>
    (j.withdrawDeliveryEvent recipient event now).committed
  | .reconcileTerminalDeliveryRecipients event requested now =>
    (j.reconcileTerminalDeliveryRecipients event requested now).committed
  | .expireStaleLeases provenDead endedAt => (j.expireStaleLeases provenDead endedAt).committed
  | .renewActiveLease label nonce generation renewDeadlineAt =>
    (j.renewActiveLease label nonce generation renewDeadlineAt).committed
  | .claimOrRenewLease claim => (j.claimOrRenewLease claim).committed
  | .releaseLease label nonce reason now => (j.releaseLease label nonce reason now).committed
  | .armListener label nonce pid startToken parentPid coverageId now =>
    (j.armListener label nonce pid startToken parentPid coverageId now).committed
  | .exitListener coverageId reason itemId now =>
    (j.exitListener coverageId reason itemId now).committed
  | .setCursor label positions actor now => (j.setCursor label positions actor now).committed
  | .advanceCursor label nonce version snapshots advances actor allowNoLease now =>
    (j.advanceCursor label nonce version snapshots advances actor allowNoLease
      now).committed
  | .prepareAttempt request => (j.prepareAttempt request).committed
  | .rebindPreparedAttemptAccount dispatchId expected account engine =>
    (j.rebindPreparedAttemptAccount dispatchId expected account engine).committed
  | .startAttempt attemptId launchToken epoch now startDeadline =>
    (j.startAttempt attemptId launchToken epoch now startDeadline).committed
  | .markAttemptRunning attemptId launchToken launchEpoch workerInstance now =>
    (j.markAttemptRunning attemptId launchToken launchEpoch workerInstance now).committed
  | .commitTerminal request => (j.commitTerminal request).committed
  | .markOutboxProjected row now => (j.markOutboxProjected row now).committed
  | .recordOutboxProjectionFailure row error now retryAt =>
    (j.recordOutboxProjectionFailure row error now retryAt).committed
  | .recordSystemAttention itemType reason dedupeNamespace dedupeKey dispatchId now =>
    (j.recordSystemAttention itemType reason dedupeNamespace dedupeKey dispatchId
      now).committed
  | .resolveSystemAttention itemType dispatchId keepReason now =>
    (j.resolveSystemAttention itemType dispatchId keepReason now).committed

/-- The next journal: the committed one, or the same one after an abort. -/
def Journal.step (j : Journal) (op : JournalOp) : Journal :=
  match op.run j with
  | .ok j' => j'
  | .error _ => j

/-- A property that every committing transaction preserves is preserved by every
step. -/
theorem Journal.step_of_run {P : Journal → Prop} (hj : P j)
    (hrun : ∀ j', op.run j = .ok j' → P j') : P (j.step op) := by
  unfold Journal.step
  split
  · exact hrun _ ‹_›
  · exact hj

/-- A journal some run of transactions from a fresh journal leads to. -/
def Journal.Reachable (j : Journal) : Prop :=
  ∃ ops, j = Machine.run Journal.step Journal.fresh ops

/-! ### What a transaction does to delivery rows -/

/-- How the delivery rows after a transaction relate to the rows before. -/
def JournalOp.DeliveryRel : JournalOp → DeliveryTable → DeliveryTable → Prop
  | .recordDeliveryEvent .. => DeliveryTable.Evolves
  | .withdrawDeliveryEvent .. => DeliveryTable.Dims
  | .reconcileTerminalDeliveryRecipients .. => DeliveryTable.Dims
  | .releaseLease .. => DeliveryTable.Dims
  | .setCursor .. => DeliveryTable.Dims
  | .advanceCursor .. => DeliveryTable.Dims
  | _ => DeliveryTable.Spares

/-- What a committing transaction writes. -/
def JournalOp.Writes : JournalOp → Journal → Journal → Prop
  | .recordDeliveryEvent .. => MailOnly DeliveryTable.Evolves
  | .markDeliveryProjected .. => MailOnly DeliveryTable.Spares
  | .withdrawDeliveryEvent .. | .reconcileTerminalDeliveryRecipients .. =>
    MailOnly DeliveryTable.Dims
  | .recordSystemAttention .. | .resolveSystemAttention .. => MailWrite DeliveryTable.Spares
  | .expireStaleLeases .. | .renewActiveLease .. | .claimOrRenewLease .. | .armListener ..
  | .exitListener .. => LeaseOnly DeliveryTable.Spares
  | .releaseLease .. => LeaseOnly DeliveryTable.Dims
  | .setCursor .. | .advanceCursor .. => CursorsWrite
  | .prepareAttempt .. | .rebindPreparedAttemptAccount .. | .startAttempt ..
  | .markAttemptRunning .. => AttemptsOnly
  | .commitTerminal .. | .markOutboxProjected .. => AttemptWrite
  | .recordOutboxProjectionFailure .. => fun j j' =>
    ∃ i, AttemptWrite j i ∧ MailWrite DeliveryTable.Spares i j'

theorem JournalOp.run_writes (h : op.run j = .ok j') : op.Writes j j' := by
  cases op <;> obtain ⟨v, hv⟩ := Tx.committed_eq_ok.mp h
  case recordDeliveryEvent => exact recordDeliveryEvent_write hv
  case markDeliveryProjected => exact markDeliveryProjected_write hv
  case withdrawDeliveryEvent => exact withdrawDeliveryEvent_write hv
  case reconcileTerminalDeliveryRecipients =>
    exact reconcileTerminalDeliveryRecipients_write hv
  case expireStaleLeases => exact leaseRules_write.expireStaleLeases trivial hv
  case renewActiveLease => exact leaseRules_write.renewActiveLease hv
  case claimOrRenewLease => exact leaseRules_write.claimOrRenewLease trivial hv
  case releaseLease => exact releaseLease_write hv
  case armListener => exact armListener_write hv
  case exitListener => exact leaseRules_write.exitListener trivial hv
  case setCursor => exact setCursor_write hv
  case advanceCursor => exact advanceCursor_write hv
  case prepareAttempt => exact prepareAttempt_write hv
  case rebindPreparedAttemptAccount => exact rebindPreparedAttemptAccount_write hv
  case startAttempt => exact startAttempt_write hv
  case markAttemptRunning => exact markAttemptRunning_write hv
  case commitTerminal => exact commitTerminal_write hv
  case markOutboxProjected => exact markOutboxProjected_write hv
  case recordOutboxProjectionFailure => exact recordOutboxProjectionFailure_write hv
  case recordSystemAttention => exact recordSystemAttention_write hv
  case resolveSystemAttention => exact resolveSystemAttention_write hv

theorem JournalOp.run_deliveryRel (h : op.run j = .ok j') :
    op.DeliveryRel j.delivery j'.delivery := by
  have hw := JournalOp.run_writes h
  cases op with
  | prepareAttempt | rebindPreparedAttemptAccount | startAttempt | markAttemptRunning =>
    exact hw.attemptWrite.spares
  | commitTerminal | markOutboxProjected => exact hw.spares
  | recordOutboxProjectionFailure =>
    obtain ⟨i, hi, hmail⟩ := hw
    exact hi.spares.trans hmail.delivery
  | _ => exact hw.delivery

theorem JournalOp.DeliveryRel.evolves {t t' : DeliveryTable} (h : op.DeliveryRel t t') :
    t.Evolves t' := by
  unfold JournalOp.DeliveryRel at h
  split at h
  · exact h
  all_goals exact h.toEvolves

theorem Journal.step_evolves (j : Journal) (op : JournalOp) :
    j.delivery.Evolves (j.step op).delivery :=
  Journal.step_of_run (P := fun j' => j.delivery.Evolves j'.delivery) (.refl j.delivery)
    fun _ hrun => (JournalOp.run_deliveryRel hrun).evolves

theorem Journal.run_evolves (j : Journal) (ops : List JournalOp) :
    j.delivery.Evolves (Machine.run Journal.step j ops).delivery :=
  Machine.run_relates (R := fun j j' => j.delivery.Evolves j'.delivery)
    (fun j => .refl j.delivery) (fun h₁ h₂ => h₁.trans h₂) Journal.step_evolves j ops

/-! ### What a transaction leaves alone -/

/-- The transactions that write `terminal_outbox`. -/
def JournalOp.WritesOutbox : JournalOp → Prop
  | .commitTerminal .. => True
  | .markOutboxProjected .. => True
  | .recordOutboxProjectionFailure .. => True
  | _ => False

/-- The transactions that write `controller_stream_cursors`. -/
def JournalOp.MovesCursors : JournalOp → Prop
  | .setCursor .. => True
  | .advanceCursor .. => True
  | _ => False

/-- The outbox and the stream cursors are as they were. -/
structure SameStreams (j j' : Journal) : Prop where
  outbox : j'.outbox = j.outbox
  streamCursors : j'.streamCursors = j.streamCursors

theorem MailWrite.sameStreams (h : MailWrite R j j') : SameStreams j j' := by
  obtain ⟨_, _, _, _, rfl⟩ := h.rest
  exact ⟨rfl, rfl⟩

theorem LeaseWrite.sameStreams (h : LeaseWrite R j j') : SameStreams j j' := by
  obtain ⟨_, _, _, _, _, _, rfl⟩ := h.rest
  exact ⟨rfl, rfl⟩

theorem AttemptsOnly.sameStreams (h : AttemptsOnly j j') :
    SameStreams j j' := by
  obtain ⟨_, rfl⟩ := h
  exact ⟨rfl, rfl⟩

/-- Apart from the cursor transactions, only commits and passes write the outbox, and
nothing writes stream cursors. -/
theorem JournalOp.run_sameStreams (h : op.run j = .ok j') (houtbox : ¬ op.WritesOutbox)
    (hcursors : ¬ op.MovesCursors) : SameStreams j j' := by
  have hw := JournalOp.run_writes h
  cases op with
  | setCursor | advanceCursor => exact absurd trivial hcursors
  | commitTerminal | markOutboxProjected | recordOutboxProjectionFailure =>
    exact absurd trivial houtbox
  | _ => exact hw.sameStreams

theorem JournalOp.run_streamCursors (h : op.run j = .ok j') (hcursors : ¬ op.MovesCursors) :
    j'.streamCursors = j.streamCursors := by
  have hw := JournalOp.run_writes h
  cases op with
  | commitTerminal | markOutboxProjected =>
    obtain ⟨_, _, _, rfl⟩ := hw
    rfl
  | recordOutboxProjectionFailure =>
    obtain ⟨i, ⟨_, _, _, rfl⟩, hmail⟩ := hw
    exact hmail.sameStreams.streamCursors
  | _ => exact (JournalOp.run_sameStreams h id hcursors).streamCursors

theorem JournalOp.run_outbox (h : op.run j = .ok j') (hop : ¬ op.WritesOutbox) :
    j'.outbox = j.outbox := by
  have hw := JournalOp.run_writes h
  cases op with
  | setCursor | advanceCursor =>
    obtain ⟨_, _, _, _, rfl⟩ := hw.rest
    rfl
  | _ => exact (JournalOp.run_sameStreams h hop id).outbox

/-- The transactions that write `dispatch_attempts`. -/
def JournalOp.WritesAttempts : JournalOp → Prop
  | .prepareAttempt .. | .rebindPreparedAttemptAccount .. | .startAttempt ..
  | .markAttemptRunning .. | .commitTerminal .. => True
  | _ => False

/-- The attempts and their transitions are as they were. -/
structure SameAttempts (j j' : Journal) : Prop where
  attempts : j'.attempts = j.attempts
  transitions : j'.transitions = j.transitions

theorem MailWrite.sameAttempts (h : MailWrite R j j') : SameAttempts j j' := by
  obtain ⟨_, _, _, _, rfl⟩ := h.rest
  exact ⟨rfl, rfl⟩

theorem LeaseWrite.sameAttempts (h : LeaseWrite R j j') : SameAttempts j j' := by
  obtain ⟨_, _, _, _, _, _, rfl⟩ := h.rest
  exact ⟨rfl, rfl⟩

theorem CursorsWrite.sameAttempts (h : CursorsWrite j j') : SameAttempts j j' := by
  obtain ⟨_, _, _, _, rfl⟩ := h.rest
  exact ⟨rfl, rfl⟩

theorem JournalOp.run_sameAttempts (h : op.run j = .ok j') (hop : ¬ op.WritesAttempts) :
    SameAttempts j j' := by
  have hw := JournalOp.run_writes h
  cases op with
  | prepareAttempt | rebindPreparedAttemptAccount | startAttempt | markAttemptRunning
  | commitTerminal => exact absurd trivial hop
  | markOutboxProjected =>
    obtain ⟨v, hv⟩ := Tx.committed_eq_ok.mp h
    unfold Journal.markOutboxProjected at hv
    split at hv
    · cases hv
    · cases hv
      exact ⟨rfl, rfl⟩
  | recordOutboxProjectionFailure row error now retryAt =>
    obtain ⟨v, hv⟩ := Tx.committed_eq_ok.mp h
    obtain ⟨_, _, i, hi, hj'⟩ := recordOutboxProjectionFailure_eq_ok hv
    have hfirst : SameAttempts j i := by
      rw [hi]
      exact ⟨rfl, rfl⟩
    rcases hj' with rfl | ⟨item, carrierPath, rfl⟩
    · exact hfirst
    · have hmail := (raiseSystemAttention_write i item carrierPath now).sameAttempts
      exact ⟨hmail.attempts.trans hfirst.attempts, hmail.transitions.trans hfirst.transitions⟩
  | _ => exact hw.sameAttempts

end GoalFlight
