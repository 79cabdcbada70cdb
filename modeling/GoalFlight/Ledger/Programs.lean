import GoalFlight.Journal.History
import GoalFlight.Ledger.Writers
import GoalFlight.Library.Resumption

/-!
# Ledger: the programs of its processes

Each command is a program of critical sections: a transaction of the journal, an unlocked read,
or one hold of the ledger lock.  `cmd_record` checks the journal before it takes the lock,
`cmd_finish` and the reconciler commit to the journal first and project later, the reconciler
reads all rows before it writes any, and the archiver moves rows under the same lock.
-/

namespace GoalFlight.Ledger

open Json Json.Value GoalFlight.Dispatch Relational

/-- What a section is about to write. -/
inductive Label
  | free
  /-- `cmd_record`, the row it has built. -/
  | record (r : LedgerRow)
  /-- `_stamp_nonterminal_fields`, of a row as it is known. -/
  | stamp (known : LedgerRow) (fields : StampFields)
  /-- `cmd_finish`, with the verdict that won. -/
  | finish (dispatchId : String) (v : TerminalCommit)
  /-- The reconciler, with the verdict that won. -/
  | project (dispatchId : String) (v : TerminalCommit)
  /-- `write_record` of another caller. -/
  | write (r : LedgerRow)
  | archive

/-- A program of a ledger process. -/
abbrev Program := Resumption.Program Store World Label

/-! ### Sections -/

/-- An unlocked read. -/
def readStore (rest : World → Store → Program) : Program := .step .free (fun _ s => s) rest

/-- A transaction of the journal. -/
def transact {α : Type} (tx : World → Journal → Tx α) (rest : Except Abort α → Program) :
    Program :=
  .step .free (fun w s => { s with journal := (runTx s.journal (tx w s.journal)).2 })
    fun w s => rest (runTx s.journal (tx w s.journal)).1

/-- One hold of the ledger lock. -/
def locked (label : Label) (write : World → Store → Store) (rest : Program) : Program :=
  .step label write fun _ _ => rest

/-- `commit_terminal_authority`, for a row as it is known. -/
def commitAuthority (commits : CommitEnv) (known : LedgerRow) (e : Ending)
    (rest : Except Abort TerminalCommit → Program) : Program :=
  readStore fun _ s =>
    match s.journal.attemptForDispatch known.dispatchId with
    | some a => transact (fun w j => j.commitTerminal (e.request commits w.draws a.attemptId)) rest
    | none =>
      transact (fun w j => j.prepareAttempt (attemptRequest commits w.draws known)) fun answer =>
        match answer with
        | .error abort => rest (.error abort)
        | .ok identity =>
          transact (fun w j =>
            j.commitTerminal (e.request commits w.draws identity.attemptId)) rest

/-! ### The commands -/

/-- The row that `cmd_record` writes, with what it takes over. -/
def Store.merged (s : Store) (r : LedgerRow) : LedgerRow :=
  match s.row r.dispatchId with
  | some old => mergedRow old r
  | none => r

/-- The write of `cmd_record`. -/
def Store.record (w : World) (s : Store) (r : LedgerRow) : Store := s.writeRecord w (s.merged r)

/-- The states of `cmd_record` that ask the journal. -/
def journalStates : List String := ["waiting_capacity", "starting", "running"]

/-- `cmd_record`. -/
def cmdRecord (commits : CommitEnv) (a : RecordArgs) : Program :=
  let write := fun r => locked (.record r) (fun w s => s.record w r) .done
  readStore fun w _ =>
    let r := a.row w
    if a.state ∈ journalStates then
      transact (fun w j => j.prepareAttempt (a.request commits w)) fun answer =>
        match answer with
        | .error _ => .done
        | .ok identity =>
          if a.state = "starting" then
            transact (fun w j => j.startAttempt identity.attemptId identity.launchToken
                identity.launchEpoch w.draws.now w.draws.defaultDeadline) fun started =>
              match started with
              | .error _ => .done
              | .ok identity => write (withLaunch identity r)
          else if a.state = "running" ∧ identity.lifecycleState ≠ .live .running then .done
          else write (withLaunch identity r)
    else write r

/-- The row of `read_record`. -/
def Store.readRecord (s : Store) (dispatchId : String) : Option LedgerRow :=
  (s.row dispatchId).or
    ((s.archive.rows.map Prod.snd).find? fun r => r.dispatchId = dispatchId)

/-- The write of `cmd_finish`, which needs the row in `runs.d`. -/
def Store.finish (commits : CommitEnv) (a : FinishArgs) (v : TerminalCommit) (w : World)
    (s : Store) : Store :=
  match s.row a.dispatchId with
  | none => s
  | some r => s.writeRecord w (finishedRow commits a v r)

/-- `cmd_finish`. -/
def cmdFinish (commits : CommitEnv) (a : FinishArgs) : Program :=
  readStore fun _ s =>
    match s.readRecord a.dispatchId with
    | none => .done
    | some known =>
      commitAuthority commits known a.ending fun answer =>
        match answer with
        | .error _ => .done
        | .ok v =>
          if v.idempotent = true ∧ (Capacity.given a.terminalState).any (· ≠ v.terminalState)
          then .done
          else locked (.finish a.dispatchId v) (fun w s => s.finish commits a v w) .done

/-- The write of the reconciler. -/
def Store.project (commits : CommitEnv) (known : LedgerRow) (v : TerminalCommit) (reason : Value)
    (w : World) (s : Store) : Store :=
  s.writeRecord w
    (terminalRecordProjection commits v reason ((s.row known.dispatchId).getD known))

/-- `_stamp_nonterminal_fields`. -/
def stampNonterminalFields (known : LedgerRow) (fields : StampFields) (rest : Program) : Program :=
  locked (.stamp known fields) (fun w s => s.stamp w known fields) rest

/-! ### The reconciler -/

/-- An archived row, as the reconciler knows it. -/
def archivedRow (r : LedgerRow) : LedgerRow := putField "_archived_record" (.bool true) r

/-- The row that takes the worker of a running attempt. -/
def hydratedRow (p : Scope) (a : DispatchAttempt) (rows : List LedgerRow) : LedgerRow :=
  (rows.find? fun r => r.dispatchId = a.dispatchId ∧ p.OfProject r).getD
    (syntheticRow p a.dispatchId "running")

/-- The running attempts give their workers to the rows. -/
def hydrateRows (p : Scope) (rest : List LedgerRow → Program) :
    List DispatchAttempt → List LedgerRow → Program
  | [], rows => rest rows
  | a :: more, rows =>
    match workerInstance a with
    | none => hydrateRows p rest more rows
    | some worker =>
      let r := hydratedRow p a rows
      let next := hydrateRows p rest more (hydrate p a.dispatchId worker rows)
      if r.workerPid.truthy then next
      else
        stampNonterminalFields (hydrateRow worker r)
          (.worker a worker (r.terminalKey ∈ openTerminalKeys)) next

/-- The rest of a turn, once the journal has answered. -/
def projectTurn (p : Scope) (r : LedgerRow) (needed : Bool) (e : Ending) (rest : Program) :
    Except Abort TerminalCommit → Program
  | .error _ => rest
  | .ok v =>
    if needed && !(otherField r "_archived_record").truthy then
      locked (.project r.dispatchId v) (fun w s => s.project p.commits r v e.reason w) rest
    else rest

/-- The turns of the rows. -/
def turnsOf (p : Scope) (launches : List DispatchAttempt) : List LedgerRow → Program
  | [] => .done
  | r :: more =>
    if r.dispatchId ≠ "" ∧ p.OfProject r then
      readStore fun w s =>
        let launch := launches.find? fun a => a.dispatchId = r.dispatchId
        let final := (s.journal.attemptForDispatch r.dispatchId).any
          fun a => a.lifecycle.terminal?.isSome
        let needed := (terminalSidecarObservation w r).isSome || launch.isSome ||
          r.terminalKey ∈ openTerminalKeys
        match judge w launch.isSome final r with
        | .raised => .done
        | .skipped => turnsOf p launches more
        | .held liveness reason =>
          stampNonterminalFields r (.hold liveness reason) (turnsOf p launches more)
        | .ends e =>
          match launch with
          | some a =>
            transact (fun w j => j.commitTerminal (.expired a.attemptId p.reconcileAt
                e.terminalState (p.commits.render { e with headline := none }.observation)
                w.draws.transitionId w.draws.event w.draws.now))
              (projectTurn p r needed e (turnsOf p launches more))
          | none => commitAuthority p.commits r e
              (projectTurn p r needed e (turnsOf p launches more))
    else turnsOf p launches more

/-- `reconcile_terminal_outbox`. -/
def reconcileTerminalOutbox (p : Scope) : Program :=
  readStore fun _ s =>
    let launches := p.expiredLaunches s.journal
    readStore fun _ s =>
      let running := s.journal.attempts.rows
      readStore fun _ s =>
        let runs := s.runs.rows
        readStore fun _ s =>
          let rows := runs ++ s.archive.rows.map fun e => archivedRow e.2
          hydrateRows p (turnsOf p launches) running (withExpired p rows launches)

theorem sameEnd_merged (s : Store) (r : LedgerRow) : SameEnd r (s.merged r) := by
  unfold Store.merged
  split
  · exact sameEnd_mergedRow _ r
  · exact .refl r

/-! ### Archiving -/

/-- The calendar of the archiver. -/
structure Retention where
  /-- `TERMINAL_RECORD_RETENTION_DAYS`, in seconds. -/
  seconds : Seconds
  /-- `terminal_at.strftime("%Y-%m")`. -/
  month : Seconds → String

/-- `_terminal_record_time`. -/
def terminalRecordTime (r : LedgerRow) : Option Seconds :=
  r.endedAt.seconds?.or r.updatedAt.seconds?

/-- The row is terminal, and its terminal time is before the cutoff. -/
def Archivable (k : Retention) (now : Seconds) (r : LedgerRow) : Prop :=
  isTerminalState r.terminalKey = true ∧ ∃ t ∈ terminalRecordTime r, t < now - k.seconds

instance (k : Retention) (now : Seconds) (r : LedgerRow) : Decidable (Archivable k now r) := by
  unfold Archivable
  cases terminalRecordTime r with
  | none => exact isFalse (by simp)
  | some t =>
    exact decidable_of_iff (isTerminalState r.terminalKey = true ∧ t < now - k.seconds) (by simp)

/-- The month directory that a row is moved to. -/
def archiveMonth (k : Retention) (r : LedgerRow) : String :=
  k.month ((terminalRecordTime r).getD 0)

/-- The rows that are moved, one after the other; nothing where a name is taken. -/
def moveRows (k : Retention) (s : Store) : List LedgerRow → Option Store
  | [] => some s
  | r :: more =>
    match s.archive.insert? (archiveMonth k r, r) with
    | none => none
    | some archive =>
      moveRows k { s with
        runs := s.runs.filter fun other => other.dispatchId ≠ r.dispatchId
        archive := archive } more

/-- `archive_terminal_records`; `none` where it raises, before it has moved a row. -/
def archiveTerminalRecords (k : Retention) (w : World) (s : Store) : Option Store :=
  moveRows k s (s.runs.rows.filter fun r => Archivable k w.host.now r)

/-! ### Calls -/

/-- What the processes are asked to do. -/
inductive Call
  | record (a : RecordArgs)
  | finish (a : FinishArgs)
  | stamp (known : LedgerRow) (fields : StampFields)
  | reconcile (p : Scope)
  /-- `write_record` under the lock, by another caller. -/
  | write (r : LedgerRow)
  | archive (k : Retention)
  /-- A transaction of another process. -/
  | journal (op : JournalOp)

/-- The program of a call. -/
def Call.program (commits : CommitEnv) : Call → Program
  | .record a => cmdRecord commits a
  | .finish a => cmdFinish commits a
  | .stamp known fields => stampNonterminalFields known fields .done
  | .reconcile p => reconcileTerminalOutbox p
  | .write r => locked (.write r) (fun w s => s.writeRecord w r) .done
  | .archive k =>
    locked .archive (fun w s => (archiveTerminalRecords k w s).getD s) .done
  | .journal op => locked .free (fun _ s => { s with journal := s.journal.step op }) .done

/-- The store, and the programs of its processes. -/
abbrev State := Resumption.State Store World Label

/-- A step of the processes. -/
abbrev Action := Resumption.Action Call World

/-- The state after these steps. -/
def run (commits : CommitEnv) (s : State) (actions : List Action) : State :=
  Machine.run (Resumption.step (Call.program commits)) s actions

end GoalFlight.Ledger
