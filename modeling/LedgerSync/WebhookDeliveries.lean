import LedgerSync.WebhookEndpoints

/-!
# Delivery of webhooks

A posted transfer leaves a delivery job for each subscribed endpoint. Workers claim jobs, send the
payload and complete their claims; each completion records a delivery attempt with the number that
the job has. A job that is to be retried goes on with the next number, and a job that is delivered
or dead is settled. An operator may approve the replay of a dead attempt, and another operator
executes it: it becomes a new job, with the number after that of the attempt.

Of the outbox only the events of posted transfers are modelled, since jobs and attempts refer to no
others; when they are published is decided elsewhere, and so are the endpoints. The audit events of
a recovery are left out. The attempts that were imported from before there were jobs are not part of
this model.
-/

namespace LedgerSync

open Lib

/-! ## Tables -/

/-- The status of a delivery job or of a delivery attempt. -/
inductive DeliveryStatus where
  | pending
  | retrying
  | delivered
  | dead
deriving DecidableEq

/-- `status IN ('pending','retrying')`. -/
def DeliveryStatus.Unsettled (st : DeliveryStatus) : Prop := st = .pending ∨ st = .retrying

/-- Whether a delivery is unsettled can be decided. -/
instance DeliveryStatus.decidableUnsettled (st : DeliveryStatus) : Decidable st.Unsettled :=
  inferInstanceAs (Decidable (_ ∨ _))

/-- The event of a posted transfer in `outbox_events`. -/
structure PostedEvent where
  id : Uuid
  tenantId : Uuid
  transferId : Uuid
  eventType : String
  payload : Json
  publishedAt : Option Instant
  deadAt : Option Instant

/-- A row of `webhook_delivery_jobs`. -/
structure DeliveryJob where
  id : Uuid
  tenantId : Uuid
  transferId : Uuid
  outboxEventId : Uuid
  webhookId : Uuid
  eventId : Uuid
  eventType : String
  payload : Json
  attemptNumber : ℤ
  status : DeliveryStatus
  availableAt : Instant
  claimOwner : Option String
  claimedUntil : Option Instant
  claimGeneration : ℤ
  startedAt : Option Instant
  lastErrorCode : Option String
  replayOfAttemptId : Option Uuid
  completedAt : Option Instant
  createdAt : Instant
  updatedAt : Instant

/-- `delivery_attempts.delivery_kind`. -/
inductive DeliveryKind where
  | webhook
  | notification
deriving DecidableEq

/-- A row of `delivery_attempts`. -/
structure DeliveryAttempt where
  id : Uuid
  tenantId : Uuid
  transferId : Uuid
  outboxEventId : Option Uuid
  deliveryKind : DeliveryKind
  endpointReference : String
  attemptNumber : ℤ
  status : DeliveryStatus
  responseClass : Option String
  sanitizedErrorCode : Option String
  dueAt : Instant
  startedAt : Option Instant
  completedAt : Option Instant
  createdAt : Instant
deriving DecidableEq

/-- The details of an executed replay. -/
structure ReplayDetails where
  approvalId : Uuid
  approvedBy : String
  webhookDeliveryJobId : Uuid
  reasonCode : String
deriving DecidableEq

/-- A row of `delivery_replay_actions`. -/
structure DeliveryReplayAction where
  id : Uuid
  tenantId : Uuid
  attemptId : Uuid
  action : ReplayKind
  actorSubjectId : String
  reasonCode : String
  correlationId : Uuid
  requestKey : String
  sanitizedDetails : Option ReplayDetails
  createdAt : Instant
deriving DecidableEq

/-- The tables of the deliveries. -/
structure DeliveryDb where
  subjectRoles : List SubjectRole
  endpoints : Table EndpointRow.id
  events : Table PostedEvent.id
  jobs : Table DeliveryJob.id
  attempts : Table DeliveryAttempt.id
  replays : Table DeliveryReplayAction.id

/-- The tables before the first transfer. -/
def DeliveryDb.start (subjectRoles : List SubjectRole) (endpoints : Table EndpointRow.id) :
    DeliveryDb where
  subjectRoles := subjectRoles
  endpoints := endpoints
  events := Table.empty
  jobs := Table.empty
  attempts := Table.empty
  replays := Table.empty

/-- A procedure over the deliveries. -/
abbrev DeliveryProc (α : Type) : Type := Txn DeliveryDb PgError α

/-! ## New jobs -/

/-- A posted transfer: its event, and the identifier of the job of each endpoint. -/
structure EmittedTransfer where
  tenant : Uuid
  transfer : Uuid
  event : Uuid
  payload : Json
  now : Instant
  jobId : Uuid → Uuid

/-- The event of the transfer. -/
def EmittedTransfer.row (p : EmittedTransfer) : PostedEvent :=
  ⟨p.event, p.tenant, p.transfer, "transfer.posted.v1", p.payload, none, none⟩

/-- The job of an endpoint. -/
def EmittedTransfer.job (p : EmittedTransfer) (e : EndpointRow) : DeliveryJob where
  id := p.jobId e.id
  tenantId := p.tenant
  transferId := p.transfer
  outboxEventId := p.event
  webhookId := e.id
  eventId := p.event
  eventType := "transfer.posted"
  payload := p.payload
  attemptNumber := 1
  status := .pending
  availableAt := p.now
  claimOwner := none
  claimedUntil := none
  claimGeneration := 0
  startedAt := none
  lastErrorCode := none
  replayOfAttemptId := none
  completedAt := none
  createdAt := p.now
  updatedAt := p.now

/-- The endpoints that the transfer is delivered to. -/
def DeliveryDb.subscribers (s : DeliveryDb) (tenant : Uuid) : List EndpointRow :=
  s.endpoints.rows.filter fun e =>
    e.tenantId = tenant ∧ e.status = .active ∧ "transfer.posted" ∈ e.subscribedEvents

/-- The end of `controlled_create_transfer_v1`: the event of the transfer and its jobs. -/
def emitTransfer (p : EmittedTransfer) : DeliveryProc Unit := do
  let s ← Txn.get
  let events ← Txn.orRaise (s.events.insert? p.row) (uniqueViolation "outbox_events_pkey")
  Txn.raiseIf (∃ j ∈ s.jobs.rows, ∃ e ∈ s.subscribers p.tenant, j.outboxEventId = p.event ∧
      j.webhookId = e.id ∧ j.replayOfAttemptId = none)
    (uniqueViolation "webhook_delivery_jobs_initial_event_endpoint_idx")
  let jobs ← Txn.orRaise (s.jobs.insertAll? ((s.subscribers p.tenant).map p.job))
    (uniqueViolation "webhook_delivery_jobs_pkey")
  Txn.set { s with events := events, jobs := jobs }

/-! ## Claims -/

/-- The arguments of a claim, with the clock readings for the start of each job. -/
structure DeliveryClaim extends JobClaim where
  startedAt : Uuid → Instant

/-- The event of the job is published. -/
def DeliveryDb.Published (s : DeliveryDb) (j : DeliveryJob) : Prop :=
  ∃ e, s.events.find? j.outboxEventId = some e ∧ e.publishedAt ≠ none ∧ e.deadAt = none

/-- Whether the event of a job is published can be decided. -/
instance DeliveryDb.decidablePublished (s : DeliveryDb) (j : DeliveryJob) :
    Decidable (s.Published j) :=
  inferInstanceAs (Decidable (∃ e, _ = some e ∧ _))

/-- The job may be claimed. -/
def DeliveryClaim.Candidate (p : DeliveryClaim) (s : DeliveryDb) (j : DeliveryJob) : Prop :=
  j.status.Unsettled ∧ j.availableAt ≤ p.selectAt j.id ∧
    (∀ u, j.claimedUntil = some u → u ≤ p.selectAt j.id) ∧ s.Published j ∧ j.id ∉ p.locked

/-- Whether a job can be claimed can be decided. -/
instance DeliveryClaim.decidableCandidate (p : DeliveryClaim) (s : DeliveryDb) (j : DeliveryJob) :
    Decidable (p.Candidate s j) :=
  inferInstanceAs (Decidable (_ ∧ _ ∧ (∀ u, _ = some u → _) ∧ _ ∧ _))

/-- The order of the queue. -/
def DeliveryJob.before (x y : DeliveryJob) : Bool :=
  x.availableAt < y.availableAt ∨ (x.availableAt = y.availableAt ∧
    (x.createdAt < y.createdAt ∨ (x.createdAt = y.createdAt ∧ x.id.toNat ≤ y.id.toNat)))

/-- The jobs that a claim takes. -/
def DeliveryClaim.candidates (p : DeliveryClaim) (s : DeliveryDb) : List DeliveryJob :=
  s.jobs.batch (fun j => p.Candidate s j) DeliveryJob.before p.limit.toNat

/-- A job under a new claim. -/
def DeliveryJob.claim (j : DeliveryJob) (p : DeliveryClaim) : DeliveryJob :=
  { j with
    claimOwner := some p.owner
    claimedUntil := some (p.claimAt j.id + p.lease)
    startedAt := some (p.startedAt j.id)
    updatedAt := p.updatedAt j.id
    claimGeneration := j.claimGeneration + 1 }

/-- The active endpoint of a job. -/
def DeliveryDb.activeEndpoint? (s : DeliveryDb) (j : DeliveryJob) : Option EndpointRow :=
  (s.endpoints.find? j.webhookId).filter fun e => e.tenantId = j.tenantId ∧ e.status = .active

/-- A claimed job as the worker gets it. -/
structure ClaimedDelivery where
  jobId : Uuid
  tenantId : Uuid
  transferId : Uuid
  outboxEventId : Uuid
  webhookId : Uuid
  eventId : Uuid
  eventType : String
  endpointUrl : String
  signingKeyReference : String
  signingKeyId : String
  payload : Json
  attemptNumber : ℤ
  startedAt : Option Instant
  claimGeneration : ℤ

/-- The claimed job with the active endpoint; without one the endpoint is empty. -/
def DeliveryDb.claimed (s : DeliveryDb) (j : DeliveryJob) : ClaimedDelivery :=
  let e := s.activeEndpoint? j
  ⟨j.id, j.tenantId, j.transferId, j.outboxEventId, j.webhookId, j.eventId, j.eventType,
    (e.map EndpointRow.endpointUrl).getD "", (e.map EndpointRow.signingKeyReference).getD "",
    (e.map EndpointRow.signingKeyId).getD "", j.payload, j.attemptNumber, j.startedAt,
    j.claimGeneration⟩

/-- `controlled_claim_webhook_delivery_v1`. -/
def controlledClaimWebhookDeliveryV1 (p : DeliveryClaim) : DeliveryProc (List ClaimedDelivery) := do
  Txn.raiseIf (¬p.Bounded) ⟨"22023", "", "invalid bounded queue claim"⟩
  let s ← Txn.get
  let candidates := p.candidates s
  Txn.raiseIf (∃ j ∈ candidates, ¬Bigint.Fits (j.claimGeneration + 1)) outOfRange
  let jobs := s.jobs.mapRows
    (fun j => if j.id ∈ candidates.map DeliveryJob.id then j.claim p else j)
    (by intro j; split_ifs <;> rfl)
  Txn.set { s with jobs := jobs }
  pure (candidates.map fun j => s.claimed (j.claim p))

/-- The job is under the claim of the fence, which has not lapsed at `now`, and it is not settled.
-/
def DeliveryJob.HeldBy (j : DeliveryJob) (f : JobFence) (now : Instant) : Prop :=
  j.claimOwner = some f.owner ∧ j.claimGeneration = f.generation ∧
    (∃ u, j.claimedUntil = some u ∧ now < u) ∧ j.status.Unsettled

/-- Whether a job is held under a fence can be decided. -/
instance DeliveryJob.decidableHeldBy (j : DeliveryJob) (f : JobFence) (now : Instant) :
    Decidable (j.HeldBy f now) :=
  inferInstanceAs (Decidable (_ ∧ _ ∧ (∃ u, _ = some u ∧ _) ∧ _))

/-- The job under the live claim of a fence. -/
def DeliveryDb.held? (s : DeliveryDb) (f : JobFence) (now : Instant) : Option DeliveryJob :=
  (s.jobs.find? f.job).filter (·.HeldBy f now)

/-- The job that a renewal writes. The tenant of the claim is resolved before, by
`controlled_claim_tenant_v1`. -/
def DeliveryDb.renewing? (s : DeliveryDb) (sess : Session) (f : JobFence) (clock : LeaseClock) :
    Option DeliveryJob :=
  ((s.held? f clock.resolve).filter fun j => (IsWorker f.owner ∧ 1 ≤ f.generation) ∧
    sess.Allows j.tenantId ∧ f.owner = sess.actorId).bind fun _ => s.held? f clock.check

/-- `controlled_renew_claim_v1` for the delivery jobs: whether the claim was renewed. -/
def renewDeliveryClaim (sess : Session) (f : JobFence) (lease : ℤ) (clock : LeaseClock) :
    DeliveryProc Bool := do
  Txn.raiseIf (lease < 0 ∨ longestLease < lease) ⟨"22023", "", "invalid lease duration"⟩
  let s ← Txn.get
  match s.renewing? sess f clock with
  | some j => do
    Txn.set { s with jobs := s.jobs.replace { j with claimedUntil := some (clock.set + lease) } }
    pure true
  | none => pure false

/-! ## Completion -/

/-- The outcome that a worker reports. -/
inductive DeliveryOutcome where
  | delivered
  | retrying
  | dead
deriving DecidableEq

/-- The status that an outcome gives to the attempt and its job. -/
def DeliveryOutcome.status : DeliveryOutcome → DeliveryStatus
  | delivered => .delivered
  | retrying => .retrying
  | dead => .dead

/-- The arguments of `controlled_complete_delivery_v1` besides the fence, with the identifier of the
attempt and the clock readings. -/
structure DeliveryCompletion where
  attempt : ℤ
  status : DeliveryOutcome
  time : Instant
  retry : Option Instant
  response : String
  code : String
  attemptId : Uuid
  selectAt : Instant
  updateAt : Instant
  createdAt : Instant

/-- The arguments of a completion are in their bounds. -/
def DeliveryCompletion.Bounded (p : DeliveryCompletion) : Prop :=
  1 ≤ p.attempt ∧ (p.status = .retrying → p.retry ≠ none) ∧ p.response.utf8ByteSize ≤ 64 ∧
    ¬HasControl p.response ∧ p.code.utf8ByteSize ≤ 128 ∧ ¬HasControl p.code

/-- Whether a completion is bounded can be decided. -/
instance DeliveryCompletion.decidableBounded (p : DeliveryCompletion) : Decidable p.Bounded :=
  inferInstanceAs (Decidable (_ ∧ (_ → _) ∧ _ ∧ _ ∧ _ ∧ _))

/-- The attempt that a completion records. -/
def DeliveryJob.attempt (j : DeliveryJob) (p : DeliveryCompletion) : DeliveryAttempt where
  id := p.attemptId
  tenantId := j.tenantId
  transferId := j.transferId
  outboxEventId := some j.outboxEventId
  deliveryKind := .webhook
  endpointReference := j.webhookId.text
  attemptNumber := p.attempt
  status := p.status.status
  responseClass := errorCode p.response
  sanitizedErrorCode := errorCode p.code
  dueAt := p.retry.getD p.time
  startedAt := j.startedAt
  completedAt := some p.time
  createdAt := p.createdAt

/-- A completed job. -/
def DeliveryJob.complete (j : DeliveryJob) (p : DeliveryCompletion) : DeliveryJob :=
  { j with
    status := p.status.status
    attemptNumber := if p.status = .retrying then j.attemptNumber + 1 else j.attemptNumber
    availableAt := p.retry.getD j.availableAt
    claimOwner := none
    claimedUntil := none
    lastErrorCode := errorCode p.code
    completedAt := if p.status = .retrying then none else some p.time
    updatedAt := p.time }

/-- `INSERT INTO delivery_attempts`. -/
def insertAttempt (a : DeliveryAttempt) : DeliveryProc Unit := do
  let s ← Txn.get
  Txn.raiseIf (∃ x ∈ s.attempts.rows, x.transferId = a.transferId ∧
      x.deliveryKind = a.deliveryKind ∧ x.endpointReference = a.endpointReference ∧
      x.attemptNumber = a.attemptNumber)
    (uniqueViolation "delivery_attempts_transfer_id_delivery_kind_endpoint_refere_key")
  let t ← Txn.orRaise (s.attempts.insert? a) (uniqueViolation "delivery_attempts_pkey")
  Txn.set { s with attempts := t }

/-- The job that a completion finds. -/
def DeliveryDb.completing? (s : DeliveryDb) (sess : Session) (f : JobFence)
    (p : DeliveryCompletion) : Option DeliveryJob :=
  (s.held? f p.selectAt).filter fun j => sess.Allows j.tenantId ∧ f.owner = sess.actorId ∧
    p.attempt = j.attemptNumber

/-- `controlled_complete_delivery_v1`: whether the claim was completed. -/
def controlledCompleteDeliveryV1 (sess : Session) (f : JobFence) (p : DeliveryCompletion) :
    DeliveryProc Bool := do
  Txn.raiseIf (¬p.Bounded) ⟨"22023", "", "invalid delivery completion"⟩
  let s ← Txn.get
  match s.completing? sess f p with
  | none => pure false
  | some j => do
    insertAttempt (j.attempt p)
    Txn.raiseIf (¬∃ u, j.claimedUntil = some u ∧ p.updateAt < u)
      ⟨"40001", "", "delivery lease expired during completion"⟩
    Txn.raiseIf (2 ^ 31 ≤ (j.complete p).attemptNumber) outOfRange
    let s ← Txn.get
    Txn.set { s with jobs := s.jobs.replace (j.complete p) }
    pure true

/-! ## Recovery -/

/-- The arguments of `controlled_delivery_recovery_v1` besides the action, with the identifiers that
it generates. -/
structure DeliveryRecovery where
  tenant : Uuid
  actor : String
  attempt : Uuid
  approval : Option Uuid
  key : String
  reason : String
  correlation : Uuid
  time : Instant
  actionId : Uuid
  jobId : Uuid

/-- The caller is an operator or a member of finance of the tenant. -/
def DeliveryDb.RecoveryActor (s : DeliveryDb) (sess : Session) (p : DeliveryRecovery) : Prop :=
  sess.Allows p.tenant ∧ p.actor = sess.actorId ∧ ∃ r ∈ s.subjectRoles, r.tenantId = p.tenant ∧
    r.subjectId = p.actor ∧ (r.role = .operator ∨ r.role = .finance)

/-- Whether a caller may recover deliveries can be decided. -/
instance DeliveryDb.decidableRecoveryActor (s : DeliveryDb) (sess : Session)
    (p : DeliveryRecovery) : Decidable (s.RecoveryActor sess p) :=
  inferInstanceAs (Decidable (_ ∧ _ ∧ ∃ r ∈ _, _))

/-- The dead attempt of the tenant. -/
def DeliveryDb.deadAttempt? (s : DeliveryDb) (p : DeliveryRecovery) : Option DeliveryAttempt :=
  (s.attempts.find? p.attempt).filter fun a => a.tenantId = p.tenant ∧ a.status = .dead

/-- The error where there is no dead attempt. -/
def deadAttemptNotFound : PgError :=
  ⟨"P0002", "controlled_recovery_delivery_not_found", "dead delivery attempt not found"⟩

/-- The common start of both actions. -/
def beginDeliveryRecovery (sess : Session) (p : DeliveryRecovery) : DeliveryProc Unit := do
  let s ← Txn.get
  Txn.raiseIf (¬s.RecoveryActor sess p)
    ⟨"42501", "controlled_recovery_not_approved", "recovery actor denied"⟩
  Txn.raiseIf (¬IsKey p.key) ⟨"22023", "", "invalid delivery recovery command"⟩

/-- `INSERT INTO delivery_replay_actions`. -/
def insertDeliveryReplay (x : DeliveryReplayAction) : DeliveryProc Unit := do
  let s ← Txn.get
  Txn.raiseIf (∃ r ∈ s.replays.rows, r.attemptId = x.attemptId ∧ r.action = x.action ∧
      (r.correlationId = x.correlationId ∨ x.action = .executed))
    (uniqueViolation "delivery_replay_executed_once_idx")
  let t ← Txn.orRaise (s.replays.insert? x) (uniqueViolation "delivery_replay_actions_pkey")
  Txn.set { s with replays := t }

/-- The approval of an attempt under a key. -/
def DeliveryDb.approvedBy? (s : DeliveryDb) (p : DeliveryRecovery) : Option DeliveryReplayAction :=
  s.replays.rows.find? fun r => r.tenantId = p.tenant ∧ r.attemptId = p.attempt ∧
    r.action = .approved ∧ r.requestKey = p.key

/-- `controlled_delivery_recovery_v1` with the action `approve`. -/
def approveDeliveryRecovery (sess : Session) (p : DeliveryRecovery) :
    DeliveryProc (Uuid × Bool) := do
  beginDeliveryRecovery sess p
  Txn.raiseIf (¬IsReasonCode p.reason) ⟨"22023", "", "invalid recovery reason"⟩
  let s ← Txn.get
  Txn.raiseIf (s.deadAttempt? p = none) deadAttemptNotFound
  match s.approvedBy? p with
  | some r => do
    Txn.raiseIf (r.actorSubjectId ≠ p.actor ∨ r.reasonCode ≠ p.reason)
      ⟨"23505", "controlled_recovery_idempotency", "delivery approval key conflict"⟩
    pure (r.id, true)
  | none => do
    insertDeliveryReplay ⟨p.actionId, p.tenant, p.attempt, .approved, p.actor, p.reason,
      p.correlation, p.key, none, p.time⟩
    pure (p.actionId, false)

/-- The execution of an attempt. -/
def DeliveryDb.executed? (s : DeliveryDb) (p : DeliveryRecovery) : Option DeliveryReplayAction :=
  s.replays.rows.find? fun r => r.tenantId = p.tenant ∧ r.attemptId = p.attempt ∧
    r.action = .executed

/-- The approval that the caller names, while it is live. -/
def DeliveryDb.liveApproval? (s : DeliveryDb) (p : DeliveryRecovery) :
    Option DeliveryReplayAction :=
  ((p.approval.bind s.replays.find?).filter fun r => r.tenantId = p.tenant ∧
    r.attemptId = p.attempt ∧ r.action = .approved).filter fun r =>
      r.createdAt ≤ p.time ∧ p.time < r.createdAt + day

/-- The attempt is not the last of its transfer and endpoint. -/
def DeliveryDb.Superseded (s : DeliveryDb) (a : DeliveryAttempt) : Prop :=
  ∃ b ∈ s.attempts.rows, b.tenantId = a.tenantId ∧ b.transferId = a.transferId ∧
    b.deliveryKind = a.deliveryKind ∧ b.endpointReference = a.endpointReference ∧
    a.attemptNumber < b.attemptNumber

/-- Whether an attempt is superseded can be decided. -/
instance DeliveryDb.decidableSuperseded (s : DeliveryDb) (a : DeliveryAttempt) :
    Decidable (s.Superseded a) :=
  inferInstanceAs (Decidable (∃ b ∈ _, _))

/-- The event and the endpoint of an attempt. -/
def DeliveryDb.source? (s : DeliveryDb) (a : DeliveryAttempt) :
    Option (PostedEvent × EndpointRow) :=
  ((a.outboxEventId.bind s.events.find?).filter fun e => e.tenantId = a.tenantId ∧
    e.transferId = a.transferId ∧ e.eventType = "transfer.posted.v1").bind fun e =>
      (s.endpoints.rows.find? fun w => w.tenantId = e.tenantId ∧
        w.id.text = a.endpointReference).map fun w => (e, w)

/-- The job of a replay. -/
def DeliveryRecovery.job (p : DeliveryRecovery) (a : DeliveryAttempt) (e : PostedEvent)
    (w : EndpointRow) : DeliveryJob where
  id := p.jobId
  tenantId := p.tenant
  transferId := a.transferId
  outboxEventId := e.id
  webhookId := w.id
  eventId := e.id
  eventType := "transfer.posted"
  payload := e.payload
  attemptNumber := a.attemptNumber + 1
  status := .pending
  availableAt := p.time
  claimOwner := none
  claimedUntil := none
  claimGeneration := 0
  startedAt := none
  lastErrorCode := none
  replayOfAttemptId := some p.attempt
  completedAt := none
  createdAt := p.time
  updatedAt := p.time

/-- `INSERT INTO webhook_delivery_jobs` for a replay. -/
def insertReplayJob (j : DeliveryJob) : DeliveryProc Unit := do
  let s ← Txn.get
  Txn.raiseIf (2 ^ 31 ≤ j.attemptNumber) outOfRange
  Txn.raiseIf (∃ x ∈ s.jobs.rows, x.replayOfAttemptId ≠ none ∧
      x.replayOfAttemptId = j.replayOfAttemptId)
    (uniqueViolation "webhook_delivery_jobs_replay_attempt_idx")
  let t ← Txn.orRaise (s.jobs.insert? j) (uniqueViolation "webhook_delivery_jobs_pkey")
  Txn.set { s with jobs := t }

/-- The execution of a replay that was not executed before. -/
def executeReplay (p : DeliveryRecovery) : DeliveryProc (Option Uuid × Bool) := do
  let s ← Txn.get
  let approval ← Txn.orRaise (s.liveApproval? p)
    ⟨"42501", "controlled_recovery_not_approved", "live delivery replay approval required"⟩
  Txn.raiseIf (approval.actorSubjectId = p.actor)
    ⟨"42501", "controlled_recovery_separation", "independent replay actor required"⟩
  let a ← Txn.orRaise (s.deadAttempt? p) deadAttemptNotFound
  Txn.raiseIf (s.Superseded a ∨ a.deliveryKind ≠ .webhook ∨ a.outboxEventId = none)
    ⟨"55000", "", "delivery replay source conflict"⟩
  let source ← Txn.orRaise (s.source? a) ⟨"55000", "", "delivery replay source unavailable"⟩
  insertReplayJob (p.job a source.1 source.2)
  insertDeliveryReplay ⟨p.actionId, p.tenant, p.attempt, .executed, p.actor, approval.reasonCode,
    p.correlation, p.key, some ⟨approval.id, approval.actorSubjectId, p.jobId, approval.reasonCode⟩,
    p.time⟩
  pure (some p.jobId, false)

/-- `controlled_delivery_recovery_v1` with the action `execute`. -/
def executeDeliveryRecovery (sess : Session) (p : DeliveryRecovery) :
    DeliveryProc (Option Uuid × Bool) := do
  beginDeliveryRecovery sess p
  let s ← Txn.get
  match s.executed? p with
  | some r => do
    Txn.raiseIf (r.requestKey ≠ p.key ∨ r.actorSubjectId ≠ p.actor ∨
        (r.sanitizedDetails.map ReplayDetails.approvalId) ≠ p.approval)
      ⟨"23505", "controlled_recovery_idempotency", "delivery execution key conflict"⟩
    pure (r.sanitizedDetails.map ReplayDetails.webhookDeliveryJobId, true)
  | none => executeReplay p

/-! ## Calls -/

/-- The calls. The last three stand for what happens elsewhere: operators change roles and
endpoints, and workers publish events or give them up. -/
inductive DeliveryCall where
  | post (p : EmittedTransfer)
  | claim (p : DeliveryClaim)
  | renew (sess : Session) (f : JobFence) (lease : ℤ) (clock : LeaseClock)
  | complete (sess : Session) (f : JobFence) (p : DeliveryCompletion)
  | approve (sess : Session) (p : DeliveryRecovery)
  | execute (sess : Session) (p : DeliveryRecovery)
  | roles (l : List SubjectRole)
  | endpoints (t : Table EndpointRow.id)
  | publication (published dead : Uuid → Option Instant)

/-- The publication of the events. -/
def setPublication (published dead : Uuid → Option Instant) : DeliveryProc Unit := do
  let s ← Txn.get
  let events := s.events.mapRows fun e =>
    { e with publishedAt := published e.id, deadAt := dead e.id }
  Txn.set { s with events := events }

/-- The transaction of a call. -/
def DeliveryCall.exec : DeliveryCall → DeliveryProc Unit
  | post p => emitTransfer p
  | claim p => Txn.discard (controlledClaimWebhookDeliveryV1 p)
  | renew sess f lease clock => Txn.discard (renewDeliveryClaim sess f lease clock)
  | complete sess f p => Txn.discard (controlledCompleteDeliveryV1 sess f p)
  | approve sess p => Txn.discard (approveDeliveryRecovery sess p)
  | execute sess p => Txn.discard (executeDeliveryRecovery sess p)
  | roles l => do
    let s ← Txn.get
    Txn.set { s with subjectRoles := l }
  | endpoints t => do
    let s ← Txn.get
    Txn.set { s with endpoints := t }
  | publication published dead => setPublication published dead

end LedgerSync
