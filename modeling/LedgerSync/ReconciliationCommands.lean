import LedgerSync.Values
import LedgerSync.Lib.Table
import LedgerSync.Lib.Transaction

/-!
# Reconciliation commands

An operator asks for a reconciliation of the tenant under an idempotency key. `RunCommand` first
commits a request: the row of the key, in progress, and the marker of the tenant, which names the
run and has a lease. It then executes the run in a second transaction, which stores the outcome and
deletes the marker. A call that finds its key in progress goes on with the run of the marker; a call
that finds the marker of another key is denied, or takes over where the lease has lapsed.

The model is of one tenant. Every call is a session, and sessions interleave at every statement that
reads or locks what another session can change. A session may end at any time, as it does where the
process stops or the connection is lost: `Action.crash`. The writes of a transaction are applied
where it commits. This is what the others see, since they wait for the rows that it has locked; the
keys and the marker that an open transaction has inserted are in its phase, and others wait for them
too. A request is `READ COMMITTED`, an execution `REPEATABLE READ`: its reads are of the snapshot
that it began with, and it fails where a row that it writes has changed since.

Sessions of the scheduler are part of the model, since they take the same lock. Of the comparison
only the result counts here, which is of any type. Audit events are left out, but for the check
of their actor.
-/

namespace LedgerSync

open Lib

/-! ## Tables -/

/-- The key of a command: what is unique for the tenant and the operation
`reconciliation.run.v1`. -/
structure RunKey where
  actorSubjectId : String
  idempotencyKey : String
deriving DecidableEq

/-- `storedReconciliationFailure.ErrorCode`. -/
inductive RunDenial where
  | alreadyRunning
  | responseUnknown
deriving DecidableEq

/-- A stored outcome: the result of a run, or a failure with the run that was active. -/
inductive RunOutcome (R : Type) where
  | completed (runId : Uuid) (result : R)
  | failed (code : RunDenial) (activeRunId : Uuid)
deriving DecidableEq

/-- A row of `idempotency_requests` for this operation. It is in progress while it has no outcome.
-/
structure RunRequest (R : Type) where
  key : RunKey
  requestFingerprint : Bytes
  outcome : Option (RunOutcome R)
deriving DecidableEq

/-- A row of `reconciliation_run_commands`; there is at most one for a tenant. -/
structure RunMarker where
  runId : Uuid
  key : RunKey
  correlationId : Uuid
  leaseExpiresAt : Instant
  requestedAt : Instant
deriving DecidableEq

/-- A row of `reconciliation_runs`. The command is not stored with it: it says which command wrote
the row, and is `none` for the runs of the scheduler. -/
structure RunRow (R : Type) where
  id : Uuid
  result : R
  command : Option RunKey
deriving DecidableEq

/-- The tables of the tenant. -/
structure RunTables (R : Type) where
  requests : Table (RunRequest.key (R := R))
  marker : Option RunMarker
  runs : Table (RunRow.id (R := R))

/-! ## The statements of a call -/

/-- `RunCommand`, but for the tenant. -/
structure RunCommand where
  key : RunKey
  correlationId : Uuid
  occurredAt : Instant
deriving DecidableEq

/-- Two minutes in microseconds. -/
def runLease : ℤ := 120000000

/-- The marker of a command. -/
def RunCommand.marker (c : RunCommand) (runId : Uuid) : RunMarker :=
  ⟨runId, c.key, c.correlationId, c.occurredAt + runLease, c.occurredAt⟩

/-- The row that a command reserves. -/
def RunCommand.request {R : Type} (c : RunCommand) (fingerprint : Bytes) : RunRequest R :=
  ⟨c.key, fingerprint, none⟩

/-- What a call returns. -/
inductive RunAnswer (R : Type) where
  | result (runId : Uuid) (result : R) (replayed : Bool)
  | denied (code : RunDenial) (activeRunId : Uuid) (replayed : Bool)
  | conflict
  | inProgress
  | unavailable

variable {R : Type}

/-- The answer from a stored row; none while the row is in progress. -/
def RunRequest.resolve (row : RunRequest R) (fingerprint : Bytes) : Option (RunAnswer R) :=
  if row.requestFingerprint ≠ fingerprint then some .conflict
  else row.outcome.map fun
    | .completed runId result => .result runId result true
    | .failed code active => .denied code active true

/-- `updateReconciliationIdempotency`: the row has to be in progress. -/
def updateReconciliationIdempotency (requests : Table (RunRequest.key (R := R))) (k : RunKey)
    (o : RunOutcome R) : Option (Table (RunRequest.key (R := R))) :=
  ((requests.find? k).filter fun row => row.outcome = none).map fun row =>
    requests.replace { row with outcome := some o }

/-- `storeReconciliationFailure`. -/
def storeReconciliationFailure (requests : Table (RunRequest.key (R := R))) (k : RunKey)
    (code : RunDenial) (activeRunId : Uuid) : Option (Table (RunRequest.key (R := R))) :=
  updateReconciliationIdempotency requests k (.failed code activeRunId)

/-- `storeReconciliationOutcome`. -/
def storeReconciliationOutcome (requests : Table (RunRequest.key (R := R))) (k : RunKey)
    (runId : Uuid) (result : R) : Option (Table (RunRequest.key (R := R))) :=
  updateReconciliationIdempotency requests k (.completed runId result)

/-- `loadActiveReconciliationCommand`: the marker, where it is that of the command. -/
def loadActiveReconciliationCommand (t : RunTables R) (c : RunCommand) : Option RunMarker :=
  t.marker.filter fun m => m.key = c.key

/-- The command with the correlation and the time of the marker. -/
def RunCommand.resumed (c : RunCommand) (m : RunMarker) : RunCommand :=
  { c with correlationId := m.correlationId, occurredAt := m.requestedAt }

/-- The marker is that of the run and the command. -/
def RunTables.Owns (t : RunTables R) (c : RunCommand) (runId : Uuid) : Prop :=
  ∃ m, t.marker = some m ∧ m.runId = runId ∧ m.key = c.key

/-- Whether a command owns a run can be decided. -/
instance RunTables.decidableOwns (t : RunTables R) (c : RunCommand) (runId : Uuid) :
    Decidable (t.Owns c runId) :=
  inferInstanceAs (Decidable (∃ m, _ = some m ∧ _))

/-! ## What a transaction commits -/

/-- The commit of a request: the row of the key and the marker. -/
def commitRequest (t : RunTables R) (c : RunCommand) (fingerprint : Bytes) (runId : Uuid) :
    Option (RunTables R) := do
  let requests ← t.requests.insert? (c.request fingerprint)
  if t.marker = none then some { t with requests := requests, marker := some (c.marker runId) }
  else none

/-- The commit of a denial: the row of the key with its failure. -/
def commitDenial (t : RunTables R) (c : RunCommand) (fingerprint : Bytes) (activeRunId : Uuid) :
    Option (RunTables R) := do
  let requests ← t.requests.insert? (c.request fingerprint)
  let requests ← storeReconciliationFailure requests c.key .alreadyRunning activeRunId
  some { t with requests := requests }

/-- The commit of a takeover: the stale command fails, and the marker is replaced. The audit event
of the stale command is appended with its actor, which has to be the one of the session. -/
def commitTakeover (t : RunTables R) (c : RunCommand) (fingerprint : Bytes) (runId : Uuid)
    (stale : RunMarker) : Option (RunTables R) := do
  let requests ← t.requests.insert? (c.request fingerprint)
  let requests ← storeReconciliationFailure requests stale.key .responseUnknown stale.runId
  if stale.key.actorSubjectId = c.key.actorSubjectId ∧
      (t.marker.filter fun m => m.runId ≠ stale.runId) = none then
    some { t with requests := requests, marker := some (c.marker runId) }
  else none

/-- The commit of an execution: the run, the outcome and no marker. The row and the marker have to
be those of the snapshot. -/
def commitRun [DecidableEq R] (t snapshot : RunTables R) (c : RunCommand) (runId : Uuid)
    (result : R) : Option (RunTables R) := do
  let runs ← t.runs.insert? ⟨runId, result, some c.key⟩
  let requests ← storeReconciliationOutcome t.requests c.key runId result
  if t.requests.find? c.key = snapshot.requests.find? c.key ∧ t.marker = snapshot.marker then
    some { requests := requests, marker := t.marker.filter fun m => m.runId ≠ runId, runs := runs }
  else none

/-- The commit of a run of the scheduler. -/
def commitScheduledRun (t : RunTables R) (runId : Uuid) (result : R) : Option (RunTables R) := do
  let runs ← t.runs.insert? ⟨runId, result, none⟩
  some { t with runs := runs }

/-! ## Sessions -/

/-- Where a session stands. -/
inductive RunPhase (R : Type) where
  /-- The row of the key is inserted. -/
  | reserved (c : RunCommand) (fingerprint : Bytes)
  /-- The marker is inserted. -/
  | marked (c : RunCommand) (fingerprint : Bytes) (runId : Uuid)
  /-- There is a marker already. -/
  | refused (c : RunCommand) (fingerprint : Bytes) (runId : Uuid)
  /-- The marker was read. -/
  | observed (c : RunCommand) (fingerprint : Bytes) (runId : Uuid) (active : RunMarker)
  /-- The lease has lapsed and the lock was free: it is held now. -/
  | takingOver (c : RunCommand) (fingerprint : Bytes) (runId : Uuid) (stale : RunMarker)
  | denying (c : RunCommand) (fingerprint : Bytes) (activeRunId : Uuid)
  /-- The key was found in progress. -/
  | resuming (c : RunCommand)
  /-- The run is to be executed. -/
  | accepted (c : RunCommand) (runId : Uuid)
  /-- The second transaction has begun. -/
  | begun (c : RunCommand) (runId : Uuid) (snapshot : RunTables R)
  /-- The lock is held and the snapshot has the marker of the run. -/
  | executing (c : RunCommand) (runId : Uuid) (snapshot : RunTables R)
  /-- The scheduler executes a run. -/
  | reconciling

/-- The key that the session has inserted and not committed. -/
def RunPhase.reserving : RunPhase R → Option RunKey
  | reserved c _ | marked c _ _ | refused c _ _ | observed c _ _ _ | takingOver c _ _ _
  | denying c _ _ => some c.key
  | _ => none

/-- The session has inserted a marker and not committed. -/
def RunPhase.Marking : RunPhase R → Prop
  | marked _ _ _ => True
  | _ => False

/-- Whether a phase is one of marking can be decided. -/
instance RunPhase.decidableMarking (p : RunPhase R) : Decidable p.Marking := by
  cases p <;> (unfold RunPhase.Marking; infer_instance)

/-- The session holds the advisory lock of the tenant. -/
def RunPhase.HoldsLock : RunPhase R → Prop
  | takingOver _ _ _ _ | executing _ _ _ | reconciling => True
  | _ => False

/-- The session executes a run. -/
def RunPhase.Executes : RunPhase R → Prop
  | executing _ _ _ | reconciling => True
  | _ => False

/-- An open session. -/
structure RunSession (R : Type) where
  id : ℕ
  phase : RunPhase R

/-- The tables, the holder of the advisory lock and the open sessions. -/
structure RunWorld (R : Type) where
  tables : RunTables R
  lock : Option ℕ
  sessions : Table (RunSession.id (R := R))

/-- Before the first command. -/
def RunWorld.start : RunWorld R := ⟨⟨Table.empty, none, Table.empty⟩, none, Table.empty⟩

/-! ## Steps of a session -/

/-- What a session does next, or what happens to it. -/
inductive RunAction (R : Type) where
  | mark (runId : Uuid)
  | decide (now : Instant)
  | reconciled (result : Option R)
  | recorded (runId : Uuid) (result : Option R)
  | proceed
  | crash

/-- What a step does: the session stays in its transaction or commits it, or it ends. -/
inductive RunMove (R : Type) where
  | stay (p : RunPhase R)
  | acquire (p : RunPhase R)
  | commit (t : RunTables R) (p : RunPhase R)
  | finish (t : RunTables R) (a : RunAnswer R)
  | abort (a : RunAnswer R)

/-- A commit that may fail. -/
def RunMove.ofCommit (t : Option (RunTables R)) (f : RunTables R → RunMove R) : RunMove R :=
  (t.map f).getD (.abort .unavailable)

/-- A step of a session in a phase. There is none where the session has to wait. -/
def RunWorld.step [DecidableEq R] (w : RunWorld R) :
    RunPhase R → RunAction R → Option (RunMove R)
  | _, .crash => some (.abort .unavailable)
  | .reserved c f, .mark runId =>
    if ∃ s ∈ w.sessions.rows, s.phase.Marking then none
    else if w.tables.marker = none then some (.stay (.marked c f runId))
    else some (.stay (.refused c f runId))
  | .marked c f runId, .proceed =>
    some (.ofCommit (commitRequest w.tables c f runId) fun t => .commit t (.accepted c runId))
  | .refused c f runId, .proceed =>
    match w.tables.marker with
    | none => some (.abort .unavailable)
    | some m => some (.stay (.observed c f runId m))
  | .observed c f runId m, .decide now =>
    if m.leaseExpiresAt ≤ now ∧ w.lock = none then some (.acquire (.takingOver c f runId m))
    else some (.stay (.denying c f m.runId))
  | .takingOver c f runId m, .proceed =>
    some (.ofCommit (commitTakeover w.tables c f runId m) fun t => .commit t (.accepted c runId))
  | .denying c f active, .proceed =>
    some (.ofCommit (commitDenial w.tables c f active) fun t =>
      .finish t (.denied .alreadyRunning active false))
  | .resuming c, .proceed =>
    match loadActiveReconciliationCommand w.tables c with
    | none => some (.abort .inProgress)
    | some m => some (.stay (.accepted (c.resumed m) m.runId))
  | .accepted c runId, .proceed => some (.stay (.begun c runId w.tables))
  | .begun c runId snapshot, .proceed =>
    if w.lock = none ∧ snapshot.Owns c runId then some (.acquire (.executing c runId snapshot))
    else some (.abort .inProgress)
  | .executing c runId snapshot, .reconciled result =>
    some (.ofCommit (result.bind fun r => commitRun w.tables snapshot c runId r) fun t =>
      .finish t ((result.map fun r => .result runId r false).getD .unavailable))
  | .reconciling, .recorded runId result =>
    some (.ofCommit (result.bind fun r => commitScheduledRun w.tables runId r) fun t =>
      .finish t ((result.map fun r => .result runId r false).getD .unavailable))
  | _, _ => none

/-- The session goes on in a phase. -/
def RunWorld.enter (w : RunWorld R) (i : ℕ) (p : RunPhase R) : RunWorld R :=
  { w with sessions := w.sessions.replace ⟨i, p⟩ }

/-- The lock, where the transaction of the session ends. -/
def RunWorld.released (w : RunWorld R) (i : ℕ) : Option ℕ := w.lock.filter fun j => j ≠ i

/-- The session ends. -/
def RunWorld.leave (w : RunWorld R) (i : ℕ) : RunWorld R :=
  { w with lock := w.released i, sessions := w.sessions.delete fun s => s.id = i }

/-- The world after a move of a session. -/
def RunWorld.apply (w : RunWorld R) (i : ℕ) : RunMove R → RunWorld R
  | .stay p => w.enter i p
  | .acquire p => { w.enter i p with lock := some i }
  | .commit t p => { w.enter i p with tables := t, lock := w.released i }
  | .finish t _ => { w.leave i with tables := t }
  | .abort _ => w.leave i

/-- The answer of a call that ends with the move. -/
def RunMove.answer? : RunMove R → Option (RunAnswer R)
  | .finish _ a | .abort a => some a
  | _ => none

/-! ## Events -/

/-- A new call, a run of the scheduler, or a step of an open session. -/
inductive RunEvent (R : Type) where
  | submit (i : ℕ) (c : RunCommand) (fingerprint : Bytes)
  | schedule (i : ℕ)
  | advance (i : ℕ) (a : RunAction R)

/-- There is no such step now. -/
inductive Disabled where
  | disabled

/-- A step of the world. It returns the answer of a call that ends with it. -/
abbrev RunProc (R : Type) : Type → Type := Txn (RunWorld R) Disabled

/-- The phase of a new call, or its answer. -/
def reserveReconciliationCommand (t : RunTables R) (c : RunCommand) (fingerprint : Bytes) :
    Except (RunAnswer R) (RunPhase R) :=
  match t.requests.find? c.key with
  | none => .ok (.reserved c fingerprint)
  | some row =>
    match row.resolve fingerprint with
    | some answer => .error answer
    | none => .ok (.resuming c)

/-- A new session. -/
def openSession (i : ℕ) (p : RunPhase R) (lock : Option ℕ) : RunProc R (Option (RunAnswer R)) := do
  let w ← Txn.get
  let sessions ← Txn.orRaise (w.sessions.insert? ⟨i, p⟩) .disabled
  Txn.set { w with lock := lock, sessions := sessions }
  pure none

/-- A new call waits while another session has inserted its key. -/
def submitCommand (i : ℕ) (c : RunCommand) (fingerprint : Bytes) :
    RunProc R (Option (RunAnswer R)) := do
  let w ← Txn.get
  Txn.raiseIf (∃ s ∈ w.sessions.rows, s.phase.reserving = some c.key) .disabled
  match reserveReconciliationCommand w.tables c fingerprint with
  | .error answer => pure (some answer)
  | .ok p => openSession i p w.lock

/-- `Reconcile`: the scheduler does not wait for the lock, and gives up where it is taken. -/
def reconcile (i : ℕ) : RunProc R (Option (RunAnswer R)) := do
  let w ← Txn.get
  Txn.raiseIf (w.lock ≠ none) .disabled
  openSession i .reconciling (some i)

/-- A step of an open session. -/
def advanceSession [DecidableEq R] (i : ℕ) (a : RunAction R) :
    RunProc R (Option (RunAnswer R)) := do
  let w ← Txn.get
  let s ← Txn.orRaise (w.sessions.find? i) .disabled
  let move ← Txn.orRaise (w.step s.phase a) .disabled
  Txn.set (w.apply i move)
  pure move.answer?

/-- The step of an event. -/
def RunEvent.exec [DecidableEq R] : RunEvent R → RunProc R (Option (RunAnswer R))
  | submit i c fingerprint => submitCommand i c fingerprint
  | schedule i => reconcile i
  | advance i a => advanceSession i a

end LedgerSync
