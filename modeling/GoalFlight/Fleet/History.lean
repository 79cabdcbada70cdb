import GoalFlight.Fleet.Order
import GoalFlight.Fleet.Polls

/-!
# Fleet: when a lock may be freed

The lock of an account is to be freed only after proof, and only by its owner: the last status that
was taken in is one of an end, or the process was found dead; the mirror is not stale; and the end
is a success, or the worktree was found clean after it.  Once a worktree waits for salvage, the lock
stays, and so does the record (`rightly`).

Syncs, watches, reconciling and releases come in any order.  They keep to this where each of them
`Meets` a condition (`Careful`), and do not everywhere else.
-/

namespace GoalFlight.Fleet

open Json Relational
open GoalFlight.Capacity (successTerminalRecordStates failureTerminalRecordStates
  wedgedTerminalRecordStates)
open GoalFlight.Dispatch (textOf salvageNeededStates isTerminalState)

/-! ### What a history says -/

/-- What was written over the mirror last: its state, and whether it is a verdict. -/
structure Written where
  state : Option String
  verdict : Bool

/-- The last that was written over the mirror. -/
def lastWritten : List Event → Option Written
  | [] => none
  | .accepted state :: _ => some ⟨state, false⟩
  | .verdict state :: _ => some ⟨some state, true⟩
  | _ :: history => lastWritten history

/-- The state of the last status that was ingested. -/
def lastAccepted : List Event → Option String
  | [] => none
  | .accepted state :: _ => state
  | _ :: history => lastAccepted history

/-- The worktree was found clean after the last status. -/
def checkedAccepted : List Event → Bool
  | [] => false
  | .checked .clean :: _ => true
  | .accepted _ :: _ => false
  | _ :: history => checkedAccepted history

/-- The process was found dead, and not alive after that. -/
def answeredDead : List Event → Bool
  | [] => false
  | .answered .dead :: _ => true
  | .answered .alive :: _ => false
  | _ :: history => answeredDead history

/-- The worktree was found clean after the process was found dead. -/
def checkedDead : List Event → Bool
  | [] => false
  | .checked .clean :: history => answeredDead history || checkedDead history
  | .answered .alive :: _ => false
  | _ :: history => checkedDead history

/-- A watch has confirmed what was written last. -/
def confirmedLast : List Event → Bool
  | [] => false
  | .confirmed _ :: _ => true
  | .accepted _ :: _ | .verdict _ :: _ => false
  | _ :: history => confirmedLast history

/-- A worktree that waits for salvage was recorded. -/
def salvageRecorded (history : List Event) : Bool :=
  history.any fun e => e = .verdict "salvage_needed" || e = .accepted (some "salvage_needed")

/-- **The proof** that a lock is freed after. -/
def proven (history : List Event) : Bool :=
  if (lastAccepted history).any isTerminalState then
    (lastAccepted history).any (· ∈ successTerminalRecordStates) || checkedAccepted history
  else answeredDead history && checkedDead history

/-- What may happen after a history. -/
def allowed (dispatchId : String) (history : List Event) : Event → Bool
  | .released stored stale =>
    stored.ownedBy dispatchId && !stale && proven history && !salvageRecorded history
  | .accepted _ | .verdict _ => !salvageRecorded history
  | _ => true

/-- **Locks are freed after proof, and salvage stays recorded**, in the whole of a history. -/
def rightly (dispatchId : String) : List Event → Bool
  | [] => true
  | e :: history => allowed dispatchId history e && rightly dispatchId history

/-! ### Runs -/

/-- A process with its watch. -/
inductive Watcher
  | idle
  /-- It polls; the number for which it asked for the process last. -/
  | watching (identityCheckedSeq : Option ℤ)
  /-- Its watch has ended with exit code 0, and this state. -/
  | told (state : Option String)

/-- The store, and the watches on it. -/
structure FleetState where
  store : Store
  watchers : ℕ → Watcher

/-- What can happen. -/
inductive FleetAction
  /-- `sync_fleet_mirrors` comes to the dispatch. -/
  | sync (x : Answers)
  /-- A watch begins. -/
  | watch (p : ℕ)
  /-- A round of it. -/
  | poll (p : ℕ) (x : Answers)
  /-- What follows a watch that has ended with exit code 0. -/
  | release (p : ℕ) (clock : ℤ)
  | reconcile (mutate sshReachable waited : Bool) (clock : ℤ)
  /-- Other calls change the locks. -/
  | locks (locks : LockFiles)

variable (isoSeconds : String → Option ℤ) (tokenText : ℕ → String) (target : Target)

/-- One step. -/
def FleetState.step (s : FleetState) : FleetAction → FleetState
  | .sync x =>
    match ingestDispatchMirror isoSeconds tokenText target s.store s.store.notes x with
    | none => s
    | some (store, _) => { s with store := store }
  | .watch p => { s with watchers := Function.update s.watchers p (.watching none) }
  | .poll p x =>
    match s.watchers p with
    | .watching identityCheckedSeq =>
      let (store, round) := watchRound isoSeconds tokenText target s.store x p identityCheckedSeq
      { store := store
        watchers := Function.update s.watchers p
          (match round with
            | .ended 0 state => .told state
            | .ended .. | .raised => .idle
            | .goesOn identityCheckedSeq => .watching identityCheckedSeq) }
    | _ => s
  | .release p clock =>
    match s.watchers p with
    | .told state =>
      { store := releaseLockOnConfirmedTerminal isoSeconds tokenText target s.store state clock
        watchers := Function.update s.watchers p .idle }
    | _ => s
  | .reconcile mutate sshReachable waited clock =>
    { s with store :=
        reconcileDispatch isoSeconds tokenText target s.store mutate sshReachable waited clock }
  | .locks locks => { s with store := { s.store with locks := locks } }

/-- The dispatch was registered, and no status was fetched. -/
def FleetState.start (notes : DispatchMeta) (locks : LockFiles) : FleetState :=
  ⟨⟨.missing, notes, locks, []⟩, fun _ => .idle⟩

/-! ### The condition -/

/-- An end that is listed: a success, a failure of the list, or one that waits for salvage. -/
def listed (state : Option String) : Bool :=
  state.all fun state => !isTerminalState state ||
    state ∈ successTerminalRecordStates ++ failureTerminalRecordStates ++
      wedgedTerminalRecordStates ++ salvageNeededStates

/-- The state of a status, as it goes into the mirror. -/
def storedState (r : Reading) : Option String :=
  textOf (Output.redactValue (value r.payload "state"))

instance (incoming : Placed) (held : Reading) : Decidable (Behind incoming held) :=
  decidable_of_iff (¬ follows incoming.rawHadEpoch incoming.reading held = true)
    (by rw [follows_iff, not_ahead_iff])

/-- A poll is careful: no launch without a status is given up, the state of the status is no end
that is not listed, and over a mirror that waits for salvage the status is behind. -/
def CarefulPoll (s : Store) (x : Answers) : Prop :=
  match x.fetch with
  | .failed => s.notes.launchUnconfirmed = true → givesUpLaunch s x = false
  | .fetched content =>
    ∀ incoming ∈ placed isoSeconds target.dispatchId content,
      listed (storedState incoming.reading) = true ∧
        (mirrorState isoSeconds s.file = some "salvage_needed" →
          ∀ held ∈ (readStatusMirror isoSeconds s.file none).toOption, Behind incoming held)

/-- **The condition.**  A reconciliation that may release finds a mirror of a success, or one that a
watch has confirmed; and a release comes next after the watch that it follows. -/
def Careful (s : FleetState) : FleetAction → Prop
  | .sync x | .poll _ x => CarefulPoll isoSeconds target s.store x
  | .release p _ =>
    match s.watchers p with
    | .told state =>
      state.any (· ∈ salvageNeededStates) = false → s.store.history.head? = some (.confirmed p)
    | _ => True
  | .reconcile mutate sshReachable waited _ =>
    mutate = true →
      (buildDispatchContext tokenText isoSeconds target.dispatchId s.store.file s.store.notes
        s.store.locks sshReachable waited).mayRelease = true →
      (mirrorState isoSeconds s.store.file).any (· ∈ successTerminalRecordStates) = true ∨
        confirmedLast s.store.history = true
  | _ => True

instance (s : Store) (x : Answers) : Decidable (CarefulPoll isoSeconds target s x) := by
  unfold CarefulPoll
  cases x.fetch <;> infer_instance

instance (s : FleetState) (a : FleetAction) :
    Decidable (Careful isoSeconds tokenText target s a) := by
  cases a with
  | release p clock =>
    unfold Careful
    simp only
    cases s.watchers p <;> infer_instance
  | _ => unfold Careful; infer_instance

end GoalFlight.Fleet
