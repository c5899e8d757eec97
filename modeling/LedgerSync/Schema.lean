import LedgerSync.Lib.Table
import LedgerSync.Lib.Transaction
import LedgerSync.Values

/-!
# Tables of the ledger

The rows that the controlled commands read and write, and the database that holds them. Columns
keep the names of the migrations. Row checks that the commands rely on are fields of the row, so
that a row which fails its check cannot be stored; columns that no modelled command reads or sets,
such as default creation times, are left out.

Row level security filters every table by the tenant of the session. The commands name the tenant
in their own conditions, so the filter removes no row that they would otherwise see, and it is not
modelled beyond the scope test itself (`Session.Allows`).
-/

namespace LedgerSync

open Lib

/-! ## Enumerated columns -/

/-- `accounts.status`. -/
inductive AccountStatus where
  | active
  | frozen
  | closed
deriving DecidableEq

/-- `accounts.account_kind`. -/
inductive AccountKind where
  | customer
  | fundingClearing
deriving DecidableEq

/-- `tenant_subject_roles.role`. -/
inductive Role where
  | operator
  | finance
  | support
  | viewer
  | auditor
deriving DecidableEq

/-- `account_owners.permission`. -/
inductive Permission where
  | read
  | debit
deriving DecidableEq

/-- `ledger_postings.direction`. -/
inductive Direction where
  | debit
  | credit
deriving DecidableEq

/-- `transfers.status`. -/
inductive TransferStatus where
  | pending
  | posted
  | rejected
deriving DecidableEq

/-- `journal_transactions.source_type`. -/
inductive SourceType where
  | transfer
  | fundingEvent
deriving DecidableEq

/-- `idempotency_requests.state`. -/
inductive RequestState where
  | inProgress
  | completed
  | failed
deriving DecidableEq

/-- `transfer_velocity_totals.dimension_type`. -/
inductive Dimension where
  | tenant
  | actor
  | source
deriving DecidableEq

/-- `funding_events.status`. -/
inductive FundingStatus where
  | requested
  | approved
  | posted
  | rejected
  | compensated
deriving DecidableEq

/-- `transfer_corrections.status` and `approval_records.status`. -/
inductive CorrectionStatus where
  | requested
  | approved
  | rejected
  | cancelled
  | expired
  | posted
deriving DecidableEq

/-- `approval_records.command_type`. -/
inductive CommandType where
  | funding
  | fundingCompensation
  | transferCompensation
deriving DecidableEq

/-- The control mode of a transfer policy or a funding policy. -/
inductive ControlMode where
  | productionDualControl
  | localDemoSingleOperator
deriving DecidableEq

/-- `account_holds.state`. -/
inductive HoldState where
  | active
  | captured
  | released
  | expired
deriving DecidableEq

/-- The text of a hold state. -/
def HoldState.text : HoldState → String
  | active => "active"
  | captured => "captured"
  | released => "released"
  | expired => "expired"

/-! ## Policies and permissions -/

/-- A row of `tenant_subject_roles`. -/
structure SubjectRole where
  tenantId : Uuid
  subjectId : String
  role : Role
deriving DecidableEq

/-- A row of `account_owners`. -/
structure AccountOwner where
  tenantId : Uuid
  accountId : Uuid
  subjectId : String
  permission : Permission
deriving DecidableEq

/-- A row of `account_credit_permissions`. -/
structure CreditPermission where
  tenantId : Uuid
  accountId : Uuid
  subjectId : String
deriving DecidableEq

/-- A row of `tenant_transfer_policies`. -/
structure TransferPolicy where
  tenantId : Uuid
  currency : String
  minimumTransfer : Bigint
  maximumTransfer : Bigint
  actorRolling24h : Bigint
  sourceAccountRolling24h : Bigint
  tenantRolling24h : Bigint
  policyVersion : Bigint
  controlMode : ControlMode
  requiresStepUp : Bool
  approvalTtlMinutes : ℕ
  /-- `CHECK (minimum_transfer_minor > 0)`. -/
  minimum_pos : 0 < (minimumTransfer : ℤ)
  /-- `CHECK (maximum_transfer_minor >= minimum_transfer_minor)`. -/
  minimum_le : (minimumTransfer : ℤ) ≤ maximumTransfer
  /-- `CHECK (actor_rolling_24h_minor >= maximum_transfer_minor)`. -/
  maximum_le_actor : (maximumTransfer : ℤ) ≤ actorRolling24h
  /-- `CHECK (source_account_rolling_24h_minor >= maximum_transfer_minor)`. -/
  maximum_le_source : (maximumTransfer : ℤ) ≤ sourceAccountRolling24h
  /-- `CHECK (tenant_rolling_24h_minor >= GREATEST(…))`. -/
  greatest_le_tenant : max (actorRolling24h : ℤ) sourceAccountRolling24h ≤ tenantRolling24h

/-- A row of `tenant_funding_policies`. -/
structure FundingPolicy where
  tenantId : Uuid
  currency : String
  mode : ControlMode
  financeActivated : Bool
  policyVersion : Bigint
  perCommand : Bigint
  operatorRolling24h : Bigint
  tenantRolling24h : Bigint
  /-- `CHECK (per_command_minor > 0)`. -/
  perCommand_pos : 0 < (perCommand : ℤ)
  /-- `CHECK (operator_rolling_24h_minor >= per_command_minor)`. -/
  perCommand_le : (perCommand : ℤ) ≤ operatorRolling24h
  /-- `CHECK (tenant_rolling_24h_minor >= operator_rolling_24h_minor)`. -/
  operator_le : (operatorRolling24h : ℤ) ≤ tenantRolling24h

/-- The primary key of `tenant_funding_policies`. -/
def FundingPolicy.key (p : FundingPolicy) : Uuid × String := (p.tenantId, p.currency)

/-- A row of `developer_webhook_endpoints`, as far as a transfer reads it. -/
structure WebhookEndpoint where
  id : Uuid
  tenantId : Uuid
  active : Bool
  subscribedEvents : List String
deriving DecidableEq

/-- What operators configure: tenants, roles, permissions, policies and webhook endpoints. -/
structure Settings where
  tenants : List Uuid
  subjectRoles : List SubjectRole
  accountOwners : List AccountOwner
  creditPermissions : List CreditPermission
  transferPolicies : Table TransferPolicy.tenantId
  fundingPolicies : Table FundingPolicy.key
  webhookEndpoints : Table WebhookEndpoint.id

namespace Settings

/-- The subject has one of the roles in the tenant. -/
def HasRole (c : Settings) (tenant : Uuid) (subject : String) (roles : List Role) : Prop :=
  ∃ r ∈ c.subjectRoles, r.tenantId = tenant ∧ r.subjectId = subject ∧ r.role ∈ roles

/-- The subject may debit the account. -/
def OwnsDebit (c : Settings) (tenant account : Uuid) (subject : String) : Prop :=
  ⟨tenant, account, subject, .debit⟩ ∈ c.accountOwners

/-- The subject may credit the account. -/
def MayCredit (c : Settings) (tenant account : Uuid) (subject : String) : Prop :=
  ⟨tenant, account, subject⟩ ∈ c.creditPermissions

/-- Whether an actor has one of the roles can be decided. -/
instance (c : Settings) (t : Uuid) (a : String) (rs : List Role) : Decidable (c.HasRole t a rs) :=
  inferInstanceAs (Decidable (∃ r ∈ _, _))

/-- Whether an actor owns an account for debits can be decided. -/
instance (c : Settings) (t x : Uuid) (a : String) : Decidable (c.OwnsDebit t x a) :=
  inferInstanceAs (Decidable (_ ∈ _))

/-- Whether an actor may credit an account can be decided. -/
instance (c : Settings) (t x : Uuid) (a : String) : Decidable (c.MayCredit t x a) :=
  inferInstanceAs (Decidable (_ ∈ _))

end Settings

/-! ## Accounts and balances -/

/-- A row of `accounts`. -/
structure Account where
  id : Uuid
  tenantId : Uuid
  currency : String
  status : AccountStatus
  kind : AccountKind
  externalReference : String
  /-- `CHECK (currency ~ '^[A-Z]{3}$')`. -/
  currency_shape : IsCurrency currency
deriving DecidableEq

/-- A row of `account_balance_projections`. -/
structure Balance where
  accountId : Uuid
  available : Bigint
  ledger : Bigint
  version : Bigint
  allowNegative : Bool
  updatedAt : Instant
  /-- `CHECK (balance_version >= 0)`. -/
  version_nonneg : 0 ≤ (version : ℤ)
  /-- `account_balance_available_policy`. -/
  available_policy : allowNegative = true ∨ 0 ≤ (available : ℤ)
  /-- `account_balance_ledger_policy`. -/
  ledger_policy : allowNegative = true ∨ 0 ≤ (ledger : ℤ)

/-- A row of `account_opening_balances`. -/
structure OpeningBalance where
  accountId : Uuid
  openingLedger : Bigint
deriving DecidableEq

/-! ## Transfers and journals -/

/-- A row of `idempotency_requests`. -/
structure IdempotencyRequest where
  tenantId : Uuid
  actorSubjectId : String
  operation : String
  idempotencyKey : String
  requestFingerprint : Bytes
  state : RequestState
  responseStatus : Option ℕ
  responseBody : Option Json
  transferId : Option Uuid
  expiresAt : Instant
  completedAt : Option Instant

/-- The primary key of `idempotency_requests`. -/
def IdempotencyRequest.key (r : IdempotencyRequest) : Uuid × String × String × String :=
  (r.tenantId, r.actorSubjectId, r.operation, r.idempotencyKey)

/-- A row of `transfers`. -/
structure Transfer where
  id : Uuid
  tenantId : Uuid
  actorSubjectId : String
  debitAccountId : Uuid
  creditAccountId : Uuid
  amount : Bigint
  currency : String
  status : TransferStatus
  rejectionCode : Option String
  journalTransactionId : Option Uuid
  createdAt : Instant
  completedAt : Option Instant
  policyVersion : Bigint
  compensationOfTransferId : Option Uuid
  /-- `CHECK (amount_minor > 0)`. -/
  amount_pos : 0 < (amount : ℤ)
  /-- `CHECK (debit_account_id <> credit_account_id)`. -/
  distinct : debitAccountId ≠ creditAccountId

/-- A row of `journal_transactions`. -/
structure Journal where
  id : Uuid
  tenantId : Uuid
  transferId : Option Uuid
  fundingEventId : Option Uuid
  sourceType : SourceType
  sourceId : Uuid
  occurredAt : Instant
deriving DecidableEq

/-- A row of `ledger_postings`. -/
structure Posting where
  id : Uuid
  journalTransactionId : Uuid
  tenantId : Uuid
  accountId : Uuid
  direction : Direction
  amount : Bigint
  currency : String
  occurredAt : Instant
deriving DecidableEq

/-- A row of `transfer_velocity_events`. -/
structure VelocityEvent where
  transferId : Uuid
  tenantId : Uuid
  actorSubjectId : String
  sourceAccountId : Uuid
  amount : Bigint
  occurredAt : Instant
  expiresAt : Instant
deriving DecidableEq

/-- A row of `transfer_velocity_totals`. -/
structure VelocityTotal where
  tenantId : Uuid
  dimension : Dimension
  reference : String
  total : ℤ
  updatedAt : Instant
deriving DecidableEq

/-- The primary key of `transfer_velocity_totals`. -/
def VelocityTotal.key (v : VelocityTotal) : Uuid × Dimension × String :=
  (v.tenantId, v.dimension, v.reference)

/-- A row of `transfer_corrections`. -/
structure Correction where
  id : Uuid
  tenantId : Uuid
  originalTransferId : Uuid
  compensationTransferId : Option Uuid
  requesterSubjectId : String
  approverSubjectId : Option String
  reasonCode : String
  operatorNote : String
  idempotencyKey : String
  requestFingerprint : Bytes
  status : CorrectionStatus
  decisionReason : Option String
  policyVersion : Bigint
  controlMode : ControlMode
  stepUpRequired : Bool
  approvalExpiresAt : Instant
  correlationId : Uuid
  requestedAt : Instant
  decidedAt : Option Instant
  cancelledAt : Option Instant
  postedAt : Option Instant
  updatedAt : Instant
  postIdempotencyKey : Option String

/-! ## Funding -/

/-- A row of `funding_events`. -/
structure FundingEvent where
  id : Uuid
  tenantId : Uuid
  requesterSubjectId : String
  approverSubjectId : Option String
  destinationAccountId : Uuid
  systemAccountId : Uuid
  externalReference : String
  evidenceReference : String
  idempotencyKey : String
  requestFingerprint : Bytes
  amount : Bigint
  currency : String
  status : FundingStatus
  decisionReason : Option String
  demoPolicy : Bool
  policyVersion : Bigint
  journalTransactionId : Option Uuid
  compensationOfEventId : Option Uuid
  compensationEventId : Option Uuid
  compensationReasonCode : Option String
  compensationOperatorNote : Option String
  correlationId : Uuid
  requestedAt : Instant
  approvedAt : Option Instant
  postedAt : Option Instant
  rejectedAt : Option Instant
  compensatedAt : Option Instant
  updatedAt : Instant
  postIdempotencyKey : Option String
  /-- `CHECK (amount_minor > 0)`. -/
  amount_pos : 0 < (amount : ℤ)
  /-- `CHECK (destination_account_id <> system_account_id)`. -/
  distinct : destinationAccountId ≠ systemAccountId

/-- A row of `approval_records`. -/
structure Approval where
  id : Uuid
  tenantId : Uuid
  commandType : CommandType
  targetId : Uuid
  requesterSubjectId : String
  approverSubjectId : Option String
  status : CorrectionStatus
  expiresAt : Instant
  decisionReason : Option String
  correlationId : Uuid
  policyVersion : Bigint
  createdAt : Instant
  decidedAt : Option Instant
deriving DecidableEq

/-- A row of `funding_velocity_events`. -/
structure FundingVelocity where
  fundingEventId : Uuid
  tenantId : Uuid
  actorSubjectId : String
  amount : Bigint
  occurredAt : Instant
  expiresAt : Instant
deriving DecidableEq

/-! ## Events and evidence -/

/-- A row of `outbox_events`. -/
structure OutboxEvent where
  id : Uuid
  tenantId : Uuid
  transferId : Option Uuid
  fundingEventId : Option Uuid
  openingImportId : Option Uuid
  holdId : Option Uuid
  accountId : Option Uuid
  aggregateType : String
  aggregateId : Uuid
  eventType : String
  aggregateVersion : ℤ
  payload : Json
  occurredAt : Instant

/-- A row of `audit_events`. -/
structure AuditEvent where
  id : Uuid
  tenantId : Uuid
  actorSubjectId : Option String
  eventType : String
  targetType : String
  targetId : Option String
  outcome : String
  correlationId : Uuid
  metadata : Json
  occurredAt : Instant

/-- A row of `webhook_delivery_jobs`, as a transfer writes it. -/
structure WebhookJob where
  id : Uuid
  tenantId : Uuid
  transferId : Uuid
  outboxEventId : Uuid
  webhookId : Uuid
  eventId : Uuid
  eventType : String
  payload : Json
  availableAt : Instant

/-! ## Holds -/

/-- A row of `account_holds`. -/
structure Hold where
  id : Uuid
  tenantId : Uuid
  debitAccountId : Uuid
  creditAccountId : Uuid
  amount : Bigint
  currency : String
  state : HoldState
  expiresAt : Instant
  createdAt : Instant
  createdBy : String
  version : ℕ
  completedAt : Option Instant
  transferId : Option Uuid
  /-- `CHECK (amount_minor > 0)`. -/
  amount_pos : 0 < (amount : ℤ)
  /-- `CHECK (debit_account_id <> credit_account_id)`. -/
  distinct : debitAccountId ≠ creditAccountId

/-- A row of `hold_commands`. -/
structure HoldCommand where
  tenantId : Uuid
  actorSubjectId : String
  operation : String
  idempotencyKey : String
  fingerprint : Bytes
  response : Json

/-- The primary key of `hold_commands`. -/
def HoldCommand.key (c : HoldCommand) : Uuid × String × String × String :=
  (c.tenantId, c.actorSubjectId, c.operation, c.idempotencyKey)

/-- A row of `hold_events`. -/
structure HoldEvent where
  id : Uuid
  tenantId : Uuid
  holdId : Uuid
  state : HoldState
  actorSubjectId : String
  correlationId : Uuid
  sourceBalanceVersion : Bigint
deriving DecidableEq

/-- A row of `hold_expiry_jobs`. -/
structure HoldJob where
  holdId : Uuid
  tenantId : Uuid
  expiresAt : Instant
  done : Bool
  claimOwner : Option String
  claimGeneration : ℤ
  claimedUntil : Option Instant
deriving DecidableEq

/-! ## Opening imports -/

/-- A row of `opening_import_batches`. -/
structure ImportBatch where
  id : Uuid
  tenantId : Uuid
  requesterSubjectId : String
  currency : String
  contentSha256 : Bytes
  rowCount : ℕ
  totalMinor : Bigint
  /-- `CHECK (row_count BETWEEN 1 AND 10000)`. -/
  rowCount_bounds : 1 ≤ rowCount ∧ rowCount ≤ 10000
deriving DecidableEq

/-- A row of `opening_import_rows`. -/
structure ImportRow where
  batchId : Uuid
  tenantId : Uuid
  rowNumber : ℕ
  accountId : Uuid
  opening : Bigint
  /-- `CHECK (opening_minor > 0)`. -/
  opening_pos : 0 < (opening : ℤ)
deriving DecidableEq

/-- The unique key `(batch_id, account_id)` of `opening_import_rows`. -/
def ImportRow.key (r : ImportRow) : Uuid × Uuid := (r.batchId, r.accountId)

/-- A row of `opening_import_approvals`. -/
structure ImportApproval where
  id : Uuid
  batchId : Uuid
  tenantId : Uuid
  requesterSubjectId : String
  approverSubjectId : String
  contentSha256 : Bytes
deriving DecidableEq

/-- A row of `opening_import_executions`. -/
structure ImportExecution where
  id : Uuid
  batchId : Uuid
  tenantId : Uuid
  approvalId : Uuid
  executorSubjectId : String
  contentSha256 : Bytes
  rowCount : ℕ
  totalMinor : Bigint
  correlationId : Uuid
  executedAt : Instant
deriving DecidableEq

/-! ## The database -/

/-- The tables that the controlled commands use. -/
structure Db where
  settings : Settings
  accounts : Table Account.id
  balances : Table Balance.accountId
  openings : Table OpeningBalance.accountId
  idempotencyRequests : Table IdempotencyRequest.key
  transfers : Table Transfer.id
  journals : Table Journal.id
  postings : Table Posting.id
  velocityEvents : Table VelocityEvent.transferId
  velocityTotals : Table VelocityTotal.key
  corrections : Table Correction.id
  fundingEvents : Table FundingEvent.id
  fundingVelocity : Table FundingVelocity.fundingEventId
  approvals : Table Approval.id
  outbox : Table OutboxEvent.id
  audit : Table AuditEvent.id
  webhookJobs : Table WebhookJob.id
  holds : Table Hold.id
  holdCommands : Table HoldCommand.key
  holdEvents : Table HoldEvent.id
  holdJobs : Table HoldJob.holdId
  importBatches : Table ImportBatch.id
  importRows : Table ImportRow.key
  importApprovals : Table ImportApproval.batchId
  importExecutions : Table ImportExecution.batchId

/-- The settings of a transaction that identify its caller. -/
structure Session where
  /-- `app.tenant_id`. -/
  tenantId : String
  /-- `app.actor_id`. -/
  actorId : String
  /-- The session user is a member of the provisioning role. -/
  provisioning : Bool

/-- `tenant_scope_allows`. -/
def Session.Allows (c : Session) (tenant : Uuid) : Prop :=
  tenant ≠ Uuid.nil ∧ tenant.text = c.tenantId ∧
    1 ≤ c.actorId.toList.length ∧ c.actorId.toList.length ≤ 256 ∧ Trimmed c.actorId ∧
    ¬HasControl c.actorId

/-- Whether a session is of a tenant can be decided. -/
instance (c : Session) (tenant : Uuid) : Decidable (c.Allows tenant) :=
  inferInstanceAs (Decidable (_ ∧ _ ∧ _ ∧ _ ∧ _ ∧ _))

/-- An exception: its `SQLSTATE`, the constraint that it names, and its message. -/
structure PgError where
  code : String
  constraint : String
  message : String
deriving DecidableEq

/-- A stored procedure. -/
abbrev Proc (α : Type) : Type := Txn Db PgError α

end LedgerSync
