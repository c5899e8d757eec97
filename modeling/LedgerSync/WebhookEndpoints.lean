import LedgerSync.CommandSequence
import LedgerSync.Lib.Batch
import LedgerSync.Outbox

/-!
# Webhook endpoints and their verification

A tenant registers an endpoint, which is pending until its owner has proved control over it. The
proof comes to the API (`verifyWebhook`), or a worker gets it: the registration leaves a
verification job, which workers claim for a time and complete. An active endpoint can change its
signing key, and every endpoint can be disabled. Each change of an endpoint is recorded as an event
with the new version.

The API does not touch the job of an endpoint. A claim takes the first jobs of the queue and then
returns those of them whose endpoint is pending.

The details of the events are left out, since nothing reads them, and what a command answered is
stored as the value that it encodes. A tenant and a correlation that are no identifiers are refused
before or by the database, so commands carry identifiers.
-/

namespace LedgerSync

open Lib

/-! ## Tables -/

/-- `developer_webhook_endpoints.status`. -/
inductive EndpointStatus where
  | pendingVerification
  | active
  | disabled
deriving DecidableEq

/-- A row of `developer_webhook_endpoints`. -/
structure EndpointRow where
  id : Uuid
  tenantId : Uuid
  displayName : String
  endpointUrl : String
  subscribedEvents : List String
  signingKeyReference : String
  signingKeyId : String
  status : EndpointStatus
  version : ℤ
  challengeDigest : Option Bytes
  challengeExpiresAt : Option Instant
  verifiedAt : Option Instant
  disabledAt : Option Instant
  createdAt : Instant
  updatedAt : Instant
deriving DecidableEq

/-- `developer_webhook_events.action`. -/
inductive EndpointAction where
  | registered
  | verificationScheduled
  | verified
  | signatureRotated
  | disabled
deriving DecidableEq

/-- A row of `developer_webhook_events`. -/
structure EndpointEvent where
  id : Uuid
  tenantId : Uuid
  webhookId : Uuid
  action : EndpointAction
  version : ℤ
  actorSubjectId : String
  correlationId : Uuid
  createdAt : Instant
deriving DecidableEq

/-- `webhook_endpoint_verification_jobs.status`. -/
inductive VerificationStatus where
  | pending
  | retrying
  | verified
  | dead
deriving DecidableEq

/-- `status IN ('pending','retrying')`. -/
def VerificationStatus.Unsettled (st : VerificationStatus) : Prop := st = .pending ∨ st = .retrying

/-- Whether a verification is unsettled can be decided. -/
instance VerificationStatus.decidableUnsettled (st : VerificationStatus) : Decidable st.Unsettled :=
  inferInstanceAs (Decidable (_ ∨ _))

/-- A row of `webhook_endpoint_verification_jobs`. -/
structure VerificationJob where
  id : Uuid
  tenantId : Uuid
  webhookId : Uuid
  challenge : Bytes
  expiresAt : Instant
  attemptNumber : ℤ
  status : VerificationStatus
  availableAt : Instant
  claimOwner : Option String
  claimedUntil : Option Instant
  claimGeneration : ℤ
  lastErrorCode : Option String
  completedAt : Option Instant
  correlationId : Uuid
  actorSubjectId : String
  createdAt : Instant
  updatedAt : Instant
deriving DecidableEq

/-- `developerplatform.Webhook`. -/
structure Webhook where
  id : Uuid
  displayName : String
  endpointUrl : String
  subscribedEvents : List String
  signingKeyReference : String
  signingKeyId : String
  status : EndpointStatus
  version : ℤ
  challengeExpiresAt : Option Instant
  verifiedAt : Option Instant
  disabledAt : Option Instant
  createdAt : Instant
  updatedAt : Instant
deriving DecidableEq

/-- `developer_webhook_command_idempotency.operation`. -/
inductive WebhookOperation where
  | register
  | verify
  | signatureRotate
  | disable
deriving DecidableEq

/-- A row of `developer_webhook_command_idempotency`. The answer of a command that is in progress is
not there yet. -/
structure WebhookCommandRow where
  tenantId : Uuid
  actorSubjectId : String
  operation : WebhookOperation
  idempotencyKey : String
  requestFingerprint : Bytes
  response : Option Webhook
  createdAt : Instant
  completedAt : Option Instant
deriving DecidableEq

/-- The primary key of `developer_webhook_command_idempotency`. -/
def WebhookCommandRow.key (r : WebhookCommandRow) : Uuid × String × WebhookOperation × String :=
  (r.tenantId, r.actorSubjectId, r.operation, r.idempotencyKey)

/-- The tables of the endpoints. -/
structure WebhookDb where
  tenants : List Uuid
  subjectRoles : List SubjectRole
  endpoints : Table EndpointRow.id
  events : Table EndpointEvent.id
  jobs : Table VerificationJob.id
  commands : Table WebhookCommandRow.key

/-- The tables before the first registration. -/
def WebhookDb.start (tenants : List Uuid) (subjectRoles : List SubjectRole) : WebhookDb where
  tenants := tenants
  subjectRoles := subjectRoles
  endpoints := Table.empty
  events := Table.empty
  jobs := Table.empty
  commands := Table.empty

/-- The errors of the repository. -/
inductive WebhookError where
  | invalidTenantScope
  | accountNotFound
  | notFound
  | conflict
  | versionConflict
  | idempotencyConflict
  | invalidSubscriptions
  | database (e : PgError)
deriving DecidableEq

/-- A transaction over the endpoints. -/
abbrev WebhookProc (α : Type) : Type := Txn WebhookDb WebhookError α

/-! ## Endpoints -/

/-- A text of at most `limit` characters that starts with a letter or a digit and has at least two
more characters, which may also be one of `marks`. -/
def IsKeyText (marks : List Char) (limit : ℕ) (s : String) : Prop :=
  3 ≤ s.toList.length ∧ s.toList.length ≤ limit ∧ (∃ c ∈ s.toList.head?, c.isAlphanum = true) ∧
    ∀ c ∈ s.toList, c.isAlphanum = true ∨ c ∈ marks

/-- Whether a text is one of a key can be decided. -/
instance decidableIsKeyText (marks : List Char) (limit : ℕ) (s : String) :
    Decidable (IsKeyText marks limit s) :=
  inferInstanceAs (Decidable (_ ∧ _ ∧ (∃ c ∈ _, _) ∧ ∀ c ∈ _, _))

namespace EndpointRow

/-- The checks of the columns of `developer_webhook_endpoints`. -/
def Valid (e : EndpointRow) : Prop :=
  (1 ≤ e.displayName.toList.length ∧ e.displayName.toList.length ≤ 100) ∧
    (8 ≤ e.endpointUrl.toList.length ∧ e.endpointUrl.toList.length ≤ 2048) ∧
    (1 ≤ e.subscribedEvents.length ∧ e.subscribedEvents.length ≤ 32) ∧
    IsKeyText ['.', '_', ':', '/', '-'] 200 e.signingKeyReference ∧
    IsKeyText ['.', '_', '-'] 100 e.signingKeyId ∧ 0 < e.version ∧
    ∀ x, e.challengeDigest = some x → x.length = 32

/-- Whether an endpoint is valid can be decided. -/
instance decidableValid (e : EndpointRow) : Decidable e.Valid :=
  inferInstanceAs (Decidable ((_ ∧ _) ∧ (_ ∧ _) ∧ (_ ∧ _) ∧ _ ∧ _ ∧ _ ∧ ∀ x, _ = some x → _))

/-- The endpoint as the API shows it. -/
def webhook (e : EndpointRow) : Webhook where
  id := e.id
  displayName := e.displayName
  endpointUrl := e.endpointUrl
  subscribedEvents := e.subscribedEvents
  signingKeyReference := e.signingKeyReference
  signingKeyId := e.signingKeyId
  status := e.status
  version := e.version
  challengeExpiresAt := e.challengeExpiresAt
  verifiedAt := e.verifiedAt
  disabledAt := e.disabledAt
  createdAt := e.createdAt
  updatedAt := e.updatedAt

/-- A verified endpoint. -/
def activate (e : EndpointRow) (now : Instant) : EndpointRow :=
  { e with
    status := .active
    version := e.version + 1
    challengeDigest := none
    challengeExpiresAt := none
    verifiedAt := some now
    updatedAt := now }

/-- An endpoint with another signing key. -/
def rotate (e : EndpointRow) (reference keyId : String) (now : Instant) : EndpointRow :=
  { e with
    signingKeyReference := reference
    signingKeyId := keyId
    version := e.version + 1
    updatedAt := now }

/-- A disabled endpoint. -/
def disable (e : EndpointRow) (now : Instant) : EndpointRow :=
  { e with
    status := .disabled
    version := e.version + 1
    challengeDigest := none
    challengeExpiresAt := none
    disabledAt := some now
    updatedAt := now }

end EndpointRow

/-- `insertWebhookEvent`. -/
def insertWebhookEvent (x : EndpointEvent) : WebhookProc Unit := do
  let s ← Txn.get
  Txn.raiseIf (∃ y ∈ s.events.rows, y.webhookId = x.webhookId ∧ y.version = x.version ∧
      y.action = x.action)
    (.database (uniqueViolation "developer_webhook_events_webhook_id_version_action_key"))
  let t ← Txn.orRaise (s.events.insert? x)
    (.database (uniqueViolation "developer_webhook_events_pkey"))
  Txn.set { s with events := t }

/-! ## Commands of the API -/

/-- A command under a key, with the clock of the repository. -/
structure WebhookKey where
  tenant : Uuid
  actor : String
  correlation : Uuid
  key : String
  fingerprint : Bytes
  now : Instant

/-- The scope of a command. -/
def WebhookKey.scope (k : WebhookKey) : TenantScope := ⟨k.tenant.text, k.actor⟩

/-- `authorizeTenantActor`. -/
def WebhookDb.Authorized (s : WebhookDb) (k : WebhookKey) : Prop :=
  k.tenant ∈ s.tenants ∧ ∃ r ∈ s.subjectRoles, r.tenantId = k.tenant ∧ r.subjectId = k.actor ∧
    (r.role = .operator ∨ r.role = .finance)

/-- Whether a caller may change endpoints can be decided. -/
instance WebhookDb.decidableAuthorized (s : WebhookDb) (k : WebhookKey) :
    Decidable (s.Authorized k) :=
  inferInstanceAs (Decidable (_ ∧ ∃ r ∈ _, _))

/-- `reserveWebhookCommand`: the stored answer of a repeated command. -/
def reserveWebhookCommand (k : WebhookKey) (operation : WebhookOperation) :
    WebhookProc (Option Webhook) := do
  Txn.raiseIf (k.key.toList.length < 16 ∨ 255 < k.key.toList.length ∨ k.fingerprint.length ≠ 32)
    (.database (checkViolation "developer_webhook_command_idempotency"))
  let s ← Txn.get
  match s.commands.find? (k.tenant, k.actor, operation, k.key) with
  | some r => do
    Txn.raiseIf (r.requestFingerprint ≠ k.fingerprint) .idempotencyConflict
    let w ← Txn.orRaise r.response .conflict
    pure (some w)
  | none => do
    let t ← Txn.orRaise (s.commands.insert?
        ⟨k.tenant, k.actor, operation, k.key, k.fingerprint, none, k.now, none⟩)
      (.database (uniqueViolation "developer_webhook_command_idempotency_pkey"))
    Txn.set { s with commands := t }
    pure none

/-- `completeWebhookCommand`. -/
def completeWebhookCommand (k : WebhookKey) (operation : WebhookOperation) (w : Webhook) :
    WebhookProc Unit := do
  let s ← Txn.get
  let r ← Txn.orRaise ((s.commands.find? (k.tenant, k.actor, operation, k.key)).filter
    fun r => r.response = none) .conflict
  let r' := { r with response := some w, completedAt := some k.now }
  Txn.set { s with commands := s.commands.replace r' }

/-- `developerplatform.WebhookSubmission`. -/
structure WebhookSubmission where
  webhook : Webhook
  replayed : Bool

/-- The common part of the commands: the caller is authorized, a repeated command is answered from
what is stored, and the answer of a new one is stored. -/
def webhookCommand (k : WebhookKey) (operation : WebhookOperation) (action : WebhookProc Webhook) :
    WebhookProc WebhookSubmission := do
  Txn.raiseIf (k.scope.canonical = none) .invalidTenantScope
  let s ← Txn.get
  Txn.raiseIf (¬s.Authorized k) .accountNotFound
  let stored ← reserveWebhookCommand k operation
  match stored with
  | some w => pure ⟨w, true⟩
  | none => do
    let w ← action
    completeWebhookCommand k operation w
    pure ⟨w, false⟩

/-- `developerplatform.RegisterWebhookCommand`, with the identifiers that the repository
generates. -/
structure RegisterWebhookCommand extends WebhookKey where
  displayName : String
  endpointUrl : String
  subscribedEvents : List String
  signingKeyReference : String
  signingKeyId : String
  verificationChallenge : Bytes
  challengeDigest : Bytes
  challengeExpiresAt : Instant
  webhookId : Uuid
  verificationId : Uuid
  registeredEventId : Uuid
  scheduledEventId : Uuid

namespace RegisterWebhookCommand

/-- The new endpoint. -/
def row (c : RegisterWebhookCommand) : EndpointRow where
  id := c.webhookId
  tenantId := c.tenant
  displayName := c.displayName
  endpointUrl := c.endpointUrl
  subscribedEvents := c.subscribedEvents
  signingKeyReference := c.signingKeyReference
  signingKeyId := c.signingKeyId
  status := .pendingVerification
  version := 1
  challengeDigest := some c.challengeDigest
  challengeExpiresAt := some c.challengeExpiresAt
  verifiedAt := none
  disabledAt := none
  createdAt := c.now
  updatedAt := c.now

/-- The verification job of the new endpoint. -/
def job (c : RegisterWebhookCommand) : VerificationJob where
  id := c.verificationId
  tenantId := c.tenant
  webhookId := c.webhookId
  challenge := c.verificationChallenge
  expiresAt := c.challengeExpiresAt
  attemptNumber := 1
  status := .pending
  availableAt := c.now
  claimOwner := none
  claimedUntil := none
  claimGeneration := 0
  lastErrorCode := none
  completedAt := none
  correlationId := c.correlation
  actorSubjectId := c.actor
  createdAt := c.now
  updatedAt := c.now

/-- An event of the registration. -/
def event (c : RegisterWebhookCommand) (id : Uuid) (action : EndpointAction) : EndpointEvent :=
  ⟨id, c.tenant, c.webhookId, action, 1, c.actor, c.correlation, c.now⟩

/-- The insertion of the endpoint. -/
def insertEndpoint (c : RegisterWebhookCommand) : WebhookProc Unit := do
  let s ← Txn.get
  Txn.raiseIf (¬c.row.Valid) (.database (checkViolation "developer_webhook_endpoints"))
  Txn.raiseIf (∃ e ∈ s.endpoints.rows, e.tenantId = c.tenant ∧ e.endpointUrl = c.endpointUrl)
    .conflict
  let t ← Txn.orRaise (s.endpoints.insert? c.row) .conflict
  Txn.set { s with endpoints := t }

/-- The insertion of the verification job. -/
def insertJob (c : RegisterWebhookCommand) : WebhookProc Unit := do
  let s ← Txn.get
  Txn.raiseIf (c.verificationChallenge.length < 32 ∨ 255 < c.verificationChallenge.length)
    (.database (checkViolation "webhook_endpoint_verification_jobs_challenge_check"))
  Txn.raiseIf (∃ j ∈ s.jobs.rows, j.webhookId = c.webhookId ∧ j.status.Unsettled) .conflict
  let t ← Txn.orRaise (s.jobs.insert? c.job) .conflict
  Txn.set { s with jobs := t }

end RegisterWebhookCommand

/-- `RegisterWebhook`. -/
def registerWebhook (c : RegisterWebhookCommand) : WebhookProc WebhookSubmission :=
  webhookCommand c.toWebhookKey .register do
    c.insertEndpoint
    insertWebhookEvent (c.event c.registeredEventId .registered)
    c.insertJob
    insertWebhookEvent (c.event c.scheduledEventId .verificationScheduled)
    pure c.row.webhook

/-- `lockWebhook`. -/
def lockWebhook (tenant webhook : Uuid) : WebhookProc EndpointRow := do
  let s ← Txn.get
  let e ← Txn.orRaise ((s.endpoints.find? webhook).filter fun e => e.tenantId = tenant) .notFound
  Txn.raiseIf (e.subscribedEvents = []) .invalidSubscriptions
  pure e

/-- A command on an endpoint. -/
structure EndpointCommand extends WebhookKey where
  webhookId : Uuid
  expectedVersion : ℤ
  eventId : Uuid

/-- The change of an endpoint by the API, with the event that records it. -/
def updateEndpoint (c : EndpointCommand) (e' : EndpointRow) (action : EndpointAction) :
    WebhookProc Webhook := do
  -- The new version is computed in 64 bits, and one that wraps around is not positive.
  Txn.raiseIf (¬Bigint.Fits e'.version ∨ ¬e'.Valid)
    (.database (checkViolation "developer_webhook_endpoints"))
  let s ← Txn.get
  Txn.set { s with endpoints := s.endpoints.replace e' }
  insertWebhookEvent ⟨c.eventId, c.tenant, c.webhookId, action, e'.version, c.actor, c.correlation,
    c.now⟩
  pure e'.webhook

/-- `VerifyWebhook`. -/
def verifyWebhook (c : EndpointCommand) (challengeDigest : Bytes) :
    WebhookProc WebhookSubmission :=
  webhookCommand c.toWebhookKey .verify do
    let e ← lockWebhook c.tenant c.webhookId
    Txn.raiseIf (e.status ≠ .pendingVerification ∨
        ¬(∃ x, e.challengeExpiresAt = some x ∧ c.now < x) ∨ e.challengeDigest ≠ some challengeDigest)
      .conflict
    Txn.raiseIf (e.version ≠ c.expectedVersion) .versionConflict
    updateEndpoint c (e.activate c.now) .verified

/-- `RotateWebhook`. -/
def rotateWebhook (c : EndpointCommand) (reference keyId : String) : WebhookProc WebhookSubmission :=
  webhookCommand c.toWebhookKey .signatureRotate do
    let e ← lockWebhook c.tenant c.webhookId
    Txn.raiseIf (e.status ≠ .active) .conflict
    Txn.raiseIf (e.version ≠ c.expectedVersion) .versionConflict
    updateEndpoint c (e.rotate reference keyId c.now) .signatureRotated

/-- `DisableWebhook`. -/
def disableWebhook (c : EndpointCommand) : WebhookProc WebhookSubmission :=
  webhookCommand c.toWebhookKey .disable do
    let e ← lockWebhook c.tenant c.webhookId
    Txn.raiseIf (e.status = .disabled) .conflict
    Txn.raiseIf (e.version ≠ c.expectedVersion) .versionConflict
    updateEndpoint c (e.disable c.now) .disabled

/-! ## Claims of the workers -/

/-- The arguments of a claim, with the clock readings for each job and the jobs that other
transactions hold locked. The lease is in microseconds. -/
structure JobClaim where
  lease : ℤ
  limit : ℤ
  owner : String
  selectAt : Uuid → Instant
  claimAt : Uuid → Instant
  updatedAt : Uuid → Instant
  locked : List Uuid

/-- The arguments of a claim are in their bounds. -/
def JobClaim.Bounded (p : JobClaim) : Prop :=
  IsWorker p.owner ∧ 1 ≤ p.limit ∧ p.limit ≤ 100 ∧ 0 ≤ p.lease ∧ p.lease ≤ longestLease

/-- Whether a claim is bounded can be decided. -/
instance JobClaim.decidableBounded (p : JobClaim) : Decidable p.Bounded :=
  inferInstanceAs (Decidable (_ ∧ _ ∧ _ ∧ _ ∧ _))

/-- The job is due and unclaimed. -/
def JobClaim.Due (p : JobClaim) (j : VerificationJob) : Prop :=
  j.status.Unsettled ∧ j.availableAt ≤ p.selectAt j.id ∧
    ∀ u, j.claimedUntil = some u → u ≤ p.selectAt j.id

/-- Whether a job is due can be decided. -/
instance JobClaim.decidableDue (p : JobClaim) (j : VerificationJob) : Decidable (p.Due j) :=
  inferInstanceAs (Decidable (_ ∧ _ ∧ ∀ u, _ = some u → _))

/-- The order of the queue. -/
def VerificationJob.before (x y : VerificationJob) : Bool :=
  x.availableAt < y.availableAt ∨ (x.availableAt = y.availableAt ∧
    (x.createdAt < y.createdAt ∨ (x.createdAt = y.createdAt ∧ x.id.toNat ≤ y.id.toNat)))

/-- The jobs that a claim takes: the first that are due, unclaimed and not locked. -/
def JobClaim.candidates (p : JobClaim) (s : WebhookDb) : List VerificationJob :=
  s.jobs.batch (fun j => p.Due j ∧ j.id ∉ p.locked) VerificationJob.before p.limit.toNat

/-- A job under a new claim. -/
def VerificationJob.claim (j : VerificationJob) (p : JobClaim) : VerificationJob :=
  { j with
    claimOwner := some p.owner
    claimedUntil := some (p.claimAt j.id + p.lease)
    updatedAt := p.updatedAt j.id
    claimGeneration := j.claimGeneration + 1 }

/-- The endpoint of a job, while it is pending. -/
def WebhookDb.pendingEndpoint? (s : WebhookDb) (j : VerificationJob) : Option EndpointRow :=
  (s.endpoints.find? j.webhookId).filter
    fun e => e.tenantId = j.tenantId ∧ e.status = .pendingVerification

/-- `webhookverification.Job`. -/
structure ClaimedVerification where
  id : Uuid
  tenantId : Uuid
  webhookId : Uuid
  endpointUrl : String
  signingKeyReference : String
  signingKeyId : String
  challenge : Bytes
  expiresAt : Instant
  attemptNumber : ℤ
  claimGeneration : ℤ

/-- A claimed job with its endpoint. -/
def VerificationJob.claimed (j : VerificationJob) (e : EndpointRow) : ClaimedVerification :=
  ⟨j.id, j.tenantId, j.webhookId, e.endpointUrl, e.signingKeyReference, e.signingKeyId, j.challenge,
    j.expiresAt, j.attemptNumber, j.claimGeneration⟩

/-- `controlled_claim_webhook_verification_v1`. -/
def controlledClaimWebhookVerificationV1 (p : JobClaim) : WebhookProc (List ClaimedVerification) := do
  Txn.raiseIf (¬p.Bounded) (.database ⟨"22023", "", "invalid bounded queue claim"⟩)
  let s ← Txn.get
  let candidates := p.candidates s
  Txn.raiseIf (∃ j ∈ candidates, ¬Bigint.Fits (j.claimGeneration + 1)) (.database outOfRange)
  let jobs := s.jobs.mapRows (fun j => if j ∈ candidates then j.claim p else j)
    (by intro j; split_ifs <;> rfl)
  Txn.set { s with jobs := jobs }
  pure (candidates.filterMap fun j => (s.pendingEndpoint? j).map fun e => (j.claim p).claimed e)

/-- The fence that a worker presents: the job, its name and the generation of its claim. -/
structure JobFence where
  job : Uuid
  owner : String
  generation : ℤ

/-- The job is under the claim of the fence, which has not lapsed at `now`, and it is not settled.
-/
def VerificationJob.HeldBy (j : VerificationJob) (f : JobFence) (now : Instant) : Prop :=
  j.claimOwner = some f.owner ∧ j.claimGeneration = f.generation ∧
    (∃ u, j.claimedUntil = some u ∧ now < u) ∧ j.status.Unsettled

/-- Whether a job is held under a fence can be decided. -/
instance VerificationJob.decidableHeldBy (j : VerificationJob) (f : JobFence) (now : Instant) :
    Decidable (j.HeldBy f now) :=
  inferInstanceAs (Decidable (_ ∧ _ ∧ (∃ u, _ = some u ∧ _) ∧ _))

/-- The job under the live claim of a fence. -/
def WebhookDb.held? (s : WebhookDb) (f : JobFence) (now : Instant) : Option VerificationJob :=
  (s.jobs.find? f.job).filter (·.HeldBy f now)

/-- The job that a renewal writes. The tenant of the claim is resolved before, by
`controlled_claim_tenant_v1`. -/
def WebhookDb.renewing? (s : WebhookDb) (sess : Session) (f : JobFence) (clock : LeaseClock) :
    Option VerificationJob :=
  ((s.held? f clock.resolve).filter fun j => (IsWorker f.owner ∧ 1 ≤ f.generation) ∧
    sess.Allows j.tenantId ∧ f.owner = sess.actorId).bind fun _ => s.held? f clock.check

/-- `controlled_renew_claim_v1` for the verification jobs: whether the claim was renewed. -/
def renewVerificationClaim (sess : Session) (f : JobFence) (lease : ℤ) (clock : LeaseClock) :
    WebhookProc Bool := do
  Txn.raiseIf (lease < 0 ∨ longestLease < lease)
    (.database ⟨"22023", "", "invalid lease duration"⟩)
  let s ← Txn.get
  match s.renewing? sess f clock with
  | some j => do
    Txn.set { s with jobs := s.jobs.replace { j with claimedUntil := some (clock.set + lease) } }
    pure true
  | none => pure false

/-! ## Completion -/

/-- The outcome that a worker reports. -/
inductive VerificationOutcome where
  | verified
  | retrying
  | dead
deriving DecidableEq

/-- The status that an outcome gives to its job. -/
def VerificationOutcome.status : VerificationOutcome → VerificationStatus
  | verified => .verified
  | retrying => .retrying
  | dead => .dead

/-- The arguments of `controlled_complete_webhook_verification_v1` besides the fence, with the
identifier of the event and the two clock readings. -/
structure VerificationCompletion where
  status : VerificationOutcome
  completed : Instant
  retry : Option Instant
  error : Option String
  response : Option String
  eventId : Uuid
  selectAt : Instant
  updateAt : Instant

/-- A completed job. -/
def VerificationJob.complete (j : VerificationJob) (p : VerificationCompletion) : VerificationJob :=
  { j with
    status := p.status.status
    attemptNumber := if p.status = .retrying then j.attemptNumber + 1 else j.attemptNumber
    availableAt := p.retry.getD j.availableAt
    claimOwner := none
    claimedUntil := none
    lastErrorCode := p.error.bind errorCode
    completedAt := if p.status = .retrying then none else some p.completed
    updatedAt := p.completed }

/-- The activation of the endpoint of a verified job. -/
def activateEndpoint (j : VerificationJob) (e : EndpointRow) (p : VerificationCompletion) :
    WebhookProc Unit := do
  Txn.raiseIf (j.expiresAt ≤ p.completed)
    (.database ⟨"55000", "", "expired challenge cannot verify a webhook"⟩)
  Txn.raiseIf (e.status ≠ .pendingVerification)
    (.database ⟨"55000", "", "webhook endpoint could not be activated"⟩)
  Txn.raiseIf (¬Bigint.Fits (e.version + 1)) (.database outOfRange)
  let s ← Txn.get
  Txn.set { s with endpoints := s.endpoints.replace (e.activate p.completed) }
  insertWebhookEvent ⟨p.eventId, j.tenantId, j.webhookId, .verified, e.version + 1,
    j.actorSubjectId, j.correlationId, p.completed⟩

/-- A completion activates the endpoint of a verified job, and leaves the endpoint as it is
otherwise. -/
def settleEndpoint (j : VerificationJob) (e : EndpointRow) (p : VerificationCompletion) :
    WebhookProc Unit :=
  if p.status = .verified then activateEndpoint j e p else pure ()

/-- The job and the endpoint that a completion locks. -/
def WebhookDb.completing? (s : WebhookDb) (sess : Session) (f : JobFence) (now : Instant) :
    Option (VerificationJob × EndpointRow) :=
  ((s.held? f now).filter fun j => sess.Allows j.tenantId ∧ sess.actorId = f.owner).bind fun j =>
    ((s.endpoints.find? j.webhookId).filter fun e => e.tenantId = j.tenantId).map fun e => (j, e)

/-- `controlled_complete_webhook_verification_v1`: whether the claim was completed. -/
def controlledCompleteWebhookVerificationV1 (sess : Session) (f : JobFence)
    (p : VerificationCompletion) : WebhookProc Bool := do
  Txn.raiseIf ((p.status = .retrying ∧ p.retry = none) ∨ 256 < (p.error.getD "").toList.length ∨
      256 < (p.response.getD "").toList.length)
    (.database ⟨"22023", "", "invalid verification completion"⟩)
  let s ← Txn.get
  match s.completing? sess f p.selectAt with
  | none => pure false
  | some (j, e) => do
    settleEndpoint j e p
    Txn.raiseIf (¬∃ u, j.claimedUntil = some u ∧ p.updateAt < u)
      (.database ⟨"55000", "", "stale verification completion"⟩)
    Txn.raiseIf (2 ^ 31 ≤ (j.complete p).attemptNumber) (.database outOfRange)
    let s ← Txn.get
    Txn.set { s with jobs := s.jobs.replace (j.complete p) }
    pure true

/-! ## Calls -/

/-- A call of the API or of a worker. -/
inductive WebhookCall where
  | register (c : RegisterWebhookCommand)
  | verify (c : EndpointCommand) (challengeDigest : Bytes)
  | rotate (c : EndpointCommand) (reference keyId : String)
  | disable (c : EndpointCommand)
  | claim (p : JobClaim)
  | renew (sess : Session) (f : JobFence) (lease : ℤ) (clock : LeaseClock)
  | complete (sess : Session) (f : JobFence) (p : VerificationCompletion)

/-- The transaction of a call. -/
def WebhookCall.exec : WebhookCall → WebhookProc Unit
  | register c => Txn.discard (registerWebhook c)
  | verify c challengeDigest => Txn.discard (verifyWebhook c challengeDigest)
  | rotate c reference keyId => Txn.discard (rotateWebhook c reference keyId)
  | disable c => Txn.discard (disableWebhook c)
  | claim p => Txn.discard (controlledClaimWebhookVerificationV1 p)
  | renew sess f lease clock => Txn.discard (renewVerificationClaim sess f lease clock)
  | complete sess f p => Txn.discard (controlledCompleteWebhookVerificationV1 sess f p)

end LedgerSync
