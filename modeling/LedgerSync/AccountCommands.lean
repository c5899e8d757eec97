import LedgerSync.CommandSequence

/-!
# Account commands

An account command reserves its key, changes the aggregate, and stores its outcome under the key:
the result with state `completed`, or the code of a denial with state `failed`. Both end in a
commit, so a denial is no error of the callback but is kept in a variable beside the submission,
from where the method returns it.

What the transaction answers to each statement is a field of `AccountAnswers`; a statement that a
run of the callback does not reach leaves its field unread.
-/

namespace LedgerSync

open Lib

/-! ## Commands and results -/

/-- `CreateAccountCommand`. -/
structure CreateAccountCommand where
  tenantId : String
  actorSubjectId : String
  correlationId : String
  idempotencyKey : String
  metadata : Metadata
  currency : String
  occurredAt : Time

/-- `UpdateAccountMetadataCommand`. -/
structure UpdateAccountMetadataCommand where
  tenantId : String
  actorSubjectId : String
  correlationId : String
  idempotencyKey : String
  accountId : String
  expectedVersion : ℤ
  metadata : Metadata
  occurredAt : Time

/-- `ChangeAccountStatusCommand`. The target is none when its text is no status. -/
structure ChangeAccountStatusCommand where
  tenantId : String
  actorSubjectId : String
  correlationId : String
  idempotencyKey : String
  accountId : String
  expectedVersion : ℤ
  targetStatus : Option AccountStatus
  reason : String
  occurredAt : Time

/-- `CommandResult`. -/
structure CommandResult where
  accountId : String
  tenantId : String
  currency : String
  status : String
  displayName : String
  reference : String
  category : String
  version : String
  availableMinor : String
  ledgerMinor : String
  createdAt : String
  updatedAt : String
deriving DecidableEq

/-- The result that no command has written. -/
def CommandResult.zero : CommandResult := ⟨"", "", "", "", "", "", "", "", "", "", "", ""⟩

/-- `json.Marshal` of a result. -/
def CommandResult.json (r : CommandResult) : Json :=
  .obj [("account_id", .str r.accountId), ("tenant_id", .str r.tenantId),
    ("currency", .str r.currency), ("status", .str r.status), ("display_name", .str r.displayName),
    ("reference", .str r.reference), ("category", .str r.category), ("version", .str r.version),
    ("available_minor", .str r.availableMinor), ("ledger_minor", .str r.ledgerMinor),
    ("created_at", .str r.createdAt), ("updated_at", .str r.updatedAt)]

/-- A text field of a document that `json.Unmarshal` reads into a text. A field that is absent or
null leaves the text as it was, and any other value but a text is an error. -/
def readText (doc : Json) (key old : String) : Option String :=
  match doc.get? key with
  | none | some .null => some old
  | some (.str s) => some s
  | some _ => none

/-- `json.Unmarshal` into a new result. -/
def CommandResult.ofJson? : Json → Option CommandResult
  | .null => some .zero
  | .obj fields => do
    let doc := Json.obj fields
    some ⟨← readText doc "account_id" "", ← readText doc "tenant_id" "",
      ← readText doc "currency" "", ← readText doc "status" "", ← readText doc "display_name" "",
      ← readText doc "reference" "", ← readText doc "category" "", ← readText doc "version" "",
      ← readText doc "available_minor" "", ← readText doc "ledger_minor" "",
      ← readText doc "created_at" "", ← readText doc "updated_at" ""⟩
  | _ => none

/-- A result that was stored is read back. -/
theorem CommandResult.ofJson?_json (r : CommandResult) : CommandResult.ofJson? r.json = some r := rfl

/-- `CommandSubmission`. -/
structure CommandSubmission where
  result : CommandResult
  replayed : Bool
deriving DecidableEq

/-- The submission that no attempt has written. -/
def CommandSubmission.zero : CommandSubmission := ⟨.zero, false⟩

/-! ## Denials -/

/-- `accountDenialCode`. -/
def accountDenialCode (e : CommandError) : Option String :=
  if e.Is .accountNotFound then some "not_found_or_not_authorized"
  else if e.Is .accountConflict then some "reference_conflict"
  else if e.Is (.account .invalidTransition) then some "invalid_transition"
  else if e.Is (.account .terminalStatus) then some "terminal_status"
  else if e.Is (.account .nonZeroBalance) then some "non_zero_balance"
  else if e.Is (.account .financialStateUnavailable) then some "financial_state_unavailable"
  else if e.Is (.account .operationalObligations) then some "operational_obligations"
  else if e.Is (.account .versionConflict) then some "version_conflict"
  else none

/-- `accountDenialError`. -/
def accountDenialError (code : String) : Option CommandError :=
  if code = "not_found_or_not_authorized" then some (.sentinel .accountNotFound)
  else if code = "reference_conflict" then some (.sentinel .accountConflict)
  else if code = "invalid_transition" then some (.sentinel (.account .invalidTransition))
  else if code = "terminal_status" then some (.sentinel (.account .terminalStatus))
  else if code = "non_zero_balance" then some (.sentinel (.account .nonZeroBalance))
  else if code = "financial_state_unavailable" then
    some (.sentinel (.account .financialStateUnavailable))
  else if code = "operational_obligations" then some (.sentinel (.account .operationalObligations))
  else if code = "version_conflict" then some (.sentinel (.account .versionConflict))
  else none

/-- `storedAccountFailure`, as it is stored. -/
def failureJson (code : String) : Json := .obj [("error_code", .str code)]

/-- `json.Unmarshal` into a new failure. -/
def failureCode? : Json → Option String
  | .null => some ""
  | .obj fields => readText (.obj fields) "error_code" ""
  | _ => none

/-! ## What a transaction answers -/

/-- The columns of `idempotency_requests` that are read back. -/
structure StoredRequest where
  requestFingerprint : Bytes
  state : RequestState
  responseBody : Option Json

/-- A row of `controlled_lock_owned_account_v1`. -/
structure LockedAccount where
  id : String
  tenantId : String
  currency : String
  status : AccountStatus
  metadata : Metadata
  version : ℤ
  createdAt : Time
  updatedAt : Time
  closedAt : Option Time
  availableMinor : ℤ
  ledgerMinor : ℤ
  permission : Permission

/-- The answers to the statements of an account command. -/
structure AccountAnswers where
  /-- `authorizeTenantActor`. -/
  authorized : Except DriverError Bool
  /-- The insert of `reserveAccountCommand`; it returns no row when the key is taken. -/
  reserved : Except DriverError Unit
  /-- The select of `reserveAccountCommand`. -/
  loaded : Except DriverError StoredRequest
  /-- `newUUID`, for a new account. -/
  accountId : Except CommandError String
  /-- `controlled_provision_account_v1`: replayed, and conflicted. -/
  provisioned : Except DriverError (Bool × Bool)
  /-- `controlled_lock_owned_account_v1`. -/
  locked : Except DriverError LockedAccount
  /-- The obligations that `authoritativeCloseState` looks for. -/
  unresolved : Except DriverError Bool
  /-- The ledger text that `authoritativeCloseState` reads. -/
  authoritative : Except DriverError String
  /-- `SAVEPOINT`. -/
  savepoint : Option DriverError
  /-- `controlled_update_account_v1`. -/
  updated : Except DriverError Bool
  /-- `ROLLBACK TO SAVEPOINT`. -/
  rollbackToSavepoint : Option DriverError
  /-- `RELEASE SAVEPOINT`. -/
  releaseSavepoint : Option DriverError
  /-- `newUUID`, for an audit event. -/
  auditId : Except CommandError String
  /-- `controlled_append_audit_v1`. -/
  audit : Option DriverError
  /-- `newUUID`, for an outbox event. -/
  outboxId : Except CommandError String
  /-- The insert into `outbox_events`. -/
  outbox : Option DriverError
  /-- The update of `idempotency_requests`: the number of its rows. -/
  stored : Except DriverError ℕ

namespace AccountAnswers

variable (w : AccountAnswers)

/-- `authorizeTenantActor`. -/
def authorizeTenantActor : Except CommandError Unit :=
  match w.authorized with
  | .error e => .error (.wrapped "authorize account tenant actor" (.driver e))
  | .ok false => .error (.sentinel .accountNotFound)
  | .ok true => .ok ()

/-- The outcome that a stored request holds, with its denial if it failed. -/
def storedOutcome (state : RequestState) (body : Json) :
    Except CommandError (CommandResult × Option CommandError) :=
  if state = .failed then
    match failureCode? body with
    | none => .error (.plain "decode failed account idempotency outcome")
    | some code =>
      match accountDenialError code with
      | none => .error (.plain "stored account denial code is malformed")
      | some denial => .ok (.zero, some denial)
  else
    match CommandResult.ofJson? body with
    | none => .error (.plain "decode account idempotency outcome")
    | some result => .ok (result, none)

/-- `reserveAccountCommand`: none when the key was free, and else the outcome that is replayed. -/
def reserveAccountCommand (fingerprint : Bytes) :
    Except CommandError (Option (CommandResult × Option CommandError)) :=
  match w.reserved with
  | .ok () => .ok none
  | .error .noRows =>
    match w.loaded with
    | .error e => .error (.wrapped "load account command idempotency" (.driver e))
    | .ok row =>
      if row.requestFingerprint.length ≠ 32 then
        .error (.plain "stored account idempotency fingerprint is malformed")
      else if row.requestFingerprint ≠ fingerprint then .error (.sentinel .idempotencyConflict)
      else if row.state = .inProgress then .error (.sentinel .requestInProgress)
      else match row.responseBody with
        | none => .error (.sentinel .requestInProgress)
        | some body => (storedOutcome row.state body).map some
  | .error e => .error (.wrapped "reserve account command idempotency" (.driver e))

/-- `insertAccountAggregate`. -/
def insertAccountAggregate : Except CommandError Unit :=
  match w.provisioned with
  | .ok (replayed, conflicted) =>
    if replayed = true ∨ conflicted = true then .error (.sentinel .accountConflict) else .ok ()
  | .error e =>
    match (CommandError.driver e).postgres? with
    | some pg =>
      if pg.constraint ∈ ["controlled_account_actor", "controlled_account_not_found",
          "controlled_account_subject"] then .error (.sentinel .accountNotFound)
      else if pg.constraint = "controlled_account_conflict" then .error (.sentinel .accountConflict)
      else .error (.wrapped "execute controlled account provisioning" (.driver e))
    | none => .error (.wrapped "execute controlled account provisioning" (.driver e))

/-- `lockOwnedAccount`: the aggregate, and its available and ledger amounts. -/
def lockOwnedAccount (actorId : String) : Except CommandError (AccountAggregate × ℤ × ℤ) :=
  match w.locked with
  | .error .noRows => .error (.sentinel .accountNotFound)
  | .error e => .error (.wrapped "lock owned account and projection" (.driver e))
  | .ok row =>
    match AccountAggregate.restore row.id row.tenantId row.currency row.status row.metadata
        row.version [⟨actorId, row.permission⟩] row.createdAt row.updatedAt
        (row.closedAt.getD 0) with
    | .error e => .error (.wrapped "restore locked account" (.sentinel (.account e)))
    | .ok aggregate => .ok (aggregate, row.availableMinor, row.ledgerMinor)

/-- `authoritativeCloseState`. -/
def authoritativeCloseState (available projectedLedger : ℤ) : Except CommandError FinancialState :=
  match w.unresolved with
  | .error e => .error (.wrapped "check unresolved account obligations" (.driver e))
  | .ok true => .error (.sentinel (.account .operationalObligations))
  | .ok false =>
    match w.authoritative with
    | .error .noRows => .error (.sentinel (.account .financialStateUnavailable))
    | .error e => .error (.wrapped "read authoritative account ledger" (.driver e))
    | .ok text =>
      match parseInt64 text with
      | none => .error (.sentinel (.account .financialStateUnavailable))
      | some minor =>
        if minor < 0 then .error (.sentinel (.account .financialStateUnavailable))
        else .ok ⟨available, projectedLedger, minor = projectedLedger⟩

/-- `updateAccountRow`. -/
def updateAccountRow : Except CommandError Unit :=
  match w.savepoint with
  | some e => .error (.wrapped "create account reference savepoint" (.driver e))
  | none =>
    match w.updated with
    | .error e =>
      if (CommandError.driver e).postgres?.map PgError.code = some "23505" then
        match w.rollbackToSavepoint with
        | some e => .error (.wrapped "rollback account reference conflict" (.driver e))
        | none =>
          match w.releaseSavepoint with
          | some e => .error (.wrapped "release account reference savepoint" (.driver e))
          | none => .error (.sentinel .accountConflict)
      else .error (.wrapped "update account" (.driver e))
    | .ok updated =>
      match w.releaseSavepoint with
      | some e => .error (.wrapped "release account reference savepoint" (.driver e))
      | none => if updated then .ok () else .error (.sentinel (.account .versionConflict))

/-- `insertAccountAudit`. -/
def insertAccountAudit : Except CommandError Unit := do
  let _ ← w.auditId
  match w.audit with
  | some e => .error (.wrapped "insert account audit event" (.driver e))
  | none => .ok ()

/-- `insertAccountOutbox`. -/
def insertAccountOutbox : Except CommandError Unit := do
  let _ ← w.outboxId
  match w.outbox with
  | some e => .error (.wrapped "insert account outbox event" (.driver e))
  | none => .ok ()

/-- The update of `storeAccountOutcome` and `storeAccountFailure`, which has to find its row. -/
def storeRequest (operation : String) : Except CommandError Unit :=
  match w.stored with
  | .error e => .error (.wrapped operation (.driver e))
  | .ok rows => if rows = 1 then .ok () else .error (.plain (operation ++ " affected other rows"))

end AccountAnswers

/-! ## The callbacks -/

/-- How a run of a callback ends, with what it wrote to the request of its key. -/
inductive AccountOutcome where
  /-- An error: the transaction is rolled back. -/
  | failed (e : CommandError)
  /-- The stored outcome is returned. -/
  | replayed (result : CommandResult) (denial : Option CommandError)
  /-- The denial is stored under its code. -/
  | denied (code : String) (denial : CommandError)
  /-- The result is stored. -/
  | succeeded (result : CommandResult)
deriving DecidableEq

/-- `persistAccountDenial`. -/
def persistAccountDenial (w : AccountAnswers) (e : CommandError) : AccountOutcome :=
  match accountDenialCode e with
  | none => .failed e
  | some code =>
    match accountDenialError code with
    | none => .failed e
    | some denial =>
      match w.insertAccountAudit with
      | .error e => .failed e
      | .ok () =>
        match w.storeRequest "store account idempotency failure" with
        | .error e => .failed e
        | .ok () => .denied code denial

/-- The text of a time in a result. -/
def timeText (t : Time) : String := nanoText t.toNat

/-- The text of a status. -/
def AccountStatus.text : AccountStatus → String
  | active => "active"
  | frozen => "frozen"
  | closed => "closed"

/-- `accountCommandResult`. -/
def accountCommandResult (a : AccountAggregate) (available ledger : ℤ) : CommandResult where
  accountId := a.id
  tenantId := a.tenantId
  currency := a.currency.code
  status := a.status.text
  displayName := a.metadata.displayName
  reference := a.metadata.externalReference
  category := a.metadata.category
  version := decimal a.version
  availableMinor := decimal available
  ledgerMinor := decimal ledger
  createdAt := timeText a.createdAt
  updatedAt := timeText a.updatedAt

/-- The end of a callback that changed the aggregate. -/
def storeAccountOutcome (w : AccountAnswers) (result : CommandResult) : AccountOutcome :=
  match w.storeRequest "store account idempotency outcome" with
  | .error e => .failed e
  | .ok () => .succeeded result

/-- The start that the three callbacks share: the caller is authorised and the key is reserved. -/
def reserveThen (w : AccountAnswers) (fingerprint : Bytes) (command : AccountOutcome) :
    AccountOutcome :=
  match w.authorizeTenantActor with
  | .error e => .failed e
  | .ok () =>
    match w.reserveAccountCommand fingerprint with
    | .error e => .failed e
    | .ok (some (result, denial)) => .replayed result denial
    | .ok none => command

/-- The callback of `Create`. -/
def createAttempt (command : CreateAccountCommand) (fingerprint : Bytes) (w : AccountAnswers) :
    AccountOutcome :=
  reserveThen w fingerprint <|
    match w.accountId with
    | .error e => .failed e
    | .ok accountId =>
      match AccountAggregate.newConfigured accountId command.tenantId command.currency
          command.metadata ⟨command.actorSubjectId, .debit⟩ command.occurredAt with
      | .error e => .failed (.sentinel (.account e))
      | .ok aggregate =>
        match w.insertAccountAggregate with
        | .error e => persistAccountDenial w e
        | .ok () =>
          match w.insertAccountAudit with
          | .error e => .failed e
          | .ok () =>
            match w.insertAccountOutbox with
            | .error e => .failed e
            | .ok () => storeAccountOutcome w (accountCommandResult aggregate 0 0)

/-- The callback of `UpdateMetadata`. -/
def updateMetadataAttempt (command : UpdateAccountMetadataCommand) (fingerprint : Bytes)
    (w : AccountAnswers) : AccountOutcome :=
  reserveThen w fingerprint <|
    match w.lockOwnedAccount command.actorSubjectId with
    | .error e => persistAccountDenial w e
    | .ok (aggregate, available, ledger) =>
      match aggregate.updateMetadata command.metadata command.expectedVersion command.occurredAt with
      | .error e => persistAccountDenial w (.sentinel (.account e))
      | .ok aggregate =>
        match w.updateAccountRow with
        | .error e => persistAccountDenial w e
        | .ok () => storeAccountOutcome w (accountCommandResult aggregate available ledger)

/-- The aggregate in the target status. -/
def changedAggregate (command : ChangeAccountStatusCommand) (w : AccountAnswers)
    (aggregate : AccountAggregate) (available ledger : ℤ) : Except CommandError AccountAggregate :=
  match command.targetStatus with
  | some .frozen =>
    (aggregate.freeze command.expectedVersion command.occurredAt).mapError
      fun e => .sentinel (.account e)
  | some .active =>
    (aggregate.reactivate command.expectedVersion command.occurredAt).mapError
      fun e => .sentinel (.account e)
  | some .closed => do
    let state ← w.authoritativeCloseState available ledger
    (aggregate.close command.expectedVersion state command.occurredAt).mapError
      fun e => .sentinel (.account e)
  | none => .error (.detailed (.account .invalidTransition) "unsupported target status")

/-- The callback of `ChangeStatus`. -/
def changeStatusAttempt (command : ChangeAccountStatusCommand) (fingerprint : Bytes)
    (w : AccountAnswers) : AccountOutcome :=
  reserveThen w fingerprint <|
    match w.lockOwnedAccount command.actorSubjectId with
    | .error e => persistAccountDenial w e
    | .ok (aggregate, available, ledger) =>
      match changedAggregate command w aggregate available ledger with
      | .error e => persistAccountDenial w e
      | .ok aggregate =>
        match w.updateAccountRow with
        | .error e => persistAccountDenial w e
        | .ok () => storeAccountOutcome w (accountCommandResult aggregate available ledger)

/-! ## The methods -/

/-- The variables of the methods that the callbacks write. -/
structure AccountVariables where
  submission : CommandSubmission
  committedDenial : Option CommandError

/-- What a callback returns and writes. A denial does not touch the submission, and a result does
not touch the denial. -/
def AccountOutcome.write (k : AccountVariables) : AccountOutcome →
    Option CommandError × AccountVariables
  | failed e => (some e, k)
  | replayed result denial => (none, ⟨⟨result, true⟩, denial⟩)
  | denied _ denial => (none, { k with committedDenial := some denial })
  | succeeded result => (none, { k with submission := ⟨result, false⟩ })

/-- A command of `AccountCommandRepository`. -/
inductive AccountCommand where
  | create (command : CreateAccountCommand)
  | updateMetadata (command : UpdateAccountMetadataCommand)
  | changeStatus (command : ChangeAccountStatusCommand)

/-- The time of a command, or the clock's when it has none. -/
def occurredAtOr (occurredAt now : Time) : Time := if occurredAt = 0 then now else occurredAt

namespace AccountCommand

/-- The tenant and the actor of a command. -/
def scope : AccountCommand → TenantScope
  | create c => ⟨c.tenantId, c.actorSubjectId⟩
  | updateMetadata c => ⟨c.tenantId, c.actorSubjectId⟩
  | changeStatus c => ⟨c.tenantId, c.actorSubjectId⟩

/-- The name of the sequence that a command is put in. -/
def sequenceKey : AccountCommand → String
  | create c => "account-create|" ++ toLower c.tenantId
  | updateMetadata c => "account-update|" ++ toLower c.tenantId ++ "|" ++ toLower c.accountId
  | changeStatus c => "account-update|" ++ toLower c.tenantId ++ "|" ++ toLower c.accountId

/-- A run of the callback of a command. -/
def attempt (fingerprint : Bytes) (now : Time) : AccountCommand → AccountAnswers → AccountOutcome
  | create c => createAttempt { c with occurredAt := occurredAtOr c.occurredAt now } fingerprint
  | updateMetadata c =>
    updateMetadataAttempt { c with occurredAt := occurredAtOr c.occurredAt now } fingerprint
  | changeStatus c =>
    changeStatusAttempt { c with occurredAt := occurredAtOr c.occurredAt now } fingerprint

end AccountCommand

/-- `classifyUncommittedError`, where `auditError` is the error of the audit transaction. -/
def classifyUncommittedError (auditError : Option CommandError) (e : CommandError) : CommandError :=
  if e.Is .idempotencyConflict ∨ e.Is .requestInProgress then e
  else match accountDenialCode e with
    | some _ =>
      match auditError with
      | some audit => .wrapped "persist required account denial audit" audit
      | none => e
    | none => .detailed .accountCommandUnavailable e.text

/-- `Create`, `UpdateMetadata` and `ChangeStatus`. -/
def accountMethod (command : AccountCommand) (fingerprint : Bytes) (now : Time)
    (auditError : Option CommandError) : Method AccountAnswers AccountVariables CommandSubmission where
  scope := command.scope
  sequenceKey := command.sequenceKey
  callback w k := (command.attempt fingerprint now w).write k
  initial := ⟨.zero, none⟩
  finish
    | some e, k => (k.submission, some (classifyUncommittedError auditError e))
    | none, k => (k.submission, k.committedDenial)

end LedgerSync
