import LedgerSync.Statements

/-!
# Transfer submission

`controlled_submit_transfer_v1`: the guard that binds the caller, the checks on the request, the
reservation of the idempotency key with its replay, the policy and account checks, the rolling
velocity totals, and the two outcomes, rejected and posted.
-/

namespace LedgerSync

open Lib

/-! ## The request -/

/-- The arguments of `controlled_submit_transfer_v1`. -/
structure TransferRequest where
  tenantId : Uuid
  actorSubjectId : String
  debitAccountId : Uuid
  creditAccountId : Uuid
  amount : Bigint
  currency : String
  idempotencyKey : String
  requestFingerprint : Bytes
  correlationId : Uuid
  pilotCurrency : String
  occurredAt : Timestamp

/-- The identifiers that one call draws with `gen_random_uuid()`. -/
structure TransferIds where
  transfer : Uuid
  journal : Uuid
  debitPosting : Uuid
  creditPosting : Uuid
  audit : Uuid
  sourceEvent : Uuid
  destinationEvent : Uuid
  transferEvent : Uuid
  /-- The delivery job of each webhook endpoint. -/
  webhookJob : Uuid → Uuid

/-- The operation under which transfer requests are recorded. -/
def transfersCreateV1 : String := "transfers.create.v1"

namespace TransferRequest

/-- The input check. -/
def WellFormed (p : TransferRequest) : Prop :=
  p.debitAccountId ≠ p.creditAccountId ∧ IsActor p.actorSubjectId ∧ 0 < (p.amount : ℤ) ∧
    IsCurrency p.currency ∧ IsCurrency p.pilotCurrency ∧ IsKey p.idempotencyKey ∧
    p.requestFingerprint.length = 32

/-- Whether a request is well formed can be decided. -/
instance (p : TransferRequest) : Decidable p.WellFormed :=
  inferInstanceAs (Decidable (_ ∧ _ ∧ _ ∧ _ ∧ _ ∧ _ ∧ _))

/-- The text whose digest is the fingerprint of a request. -/
def canonical (p : TransferRequest) : String :=
  "\n".intercalate [p.tenantId.text, p.actorSubjectId, transfersCreateV1, p.debitAccountId.text,
    p.creditAccountId.text, p.currency, p.amount.text]

/-- The key of the request in `idempotency_requests`. -/
def key (p : TransferRequest) : Uuid × String × String × String :=
  (p.tenantId, p.actorSubjectId, transfersCreateV1, p.idempotencyKey)

/-- The instant of the request. -/
def now (p : TransferRequest) : Instant := instant p.occurredAt

/-- The reservation of the key, in progress. -/
def reservation (p : TransferRequest) : IdempotencyRequest where
  tenantId := p.tenantId
  actorSubjectId := p.actorSubjectId
  operation := transfersCreateV1
  idempotencyKey := p.idempotencyKey
  requestFingerprint := p.requestFingerprint
  state := .inProgress
  responseStatus := none
  responseBody := none
  transferId := none
  expiresAt := p.now + 30 * day
  completedAt := none

/-- The outcome written into a reservation. -/
def complete (p : TransferRequest) (transfer : Uuid) (body : Json) (r : IdempotencyRequest) :
    IdempotencyRequest :=
  { r with
    state := .completed
    responseStatus := some 201
    responseBody := some body
    transferId := some transfer
    completedAt := some p.now }

/-- The reservation with its outcome. -/
def completion (p : TransferRequest) (transfer : Uuid) (body : Json) : IdempotencyRequest :=
  p.complete transfer body p.reservation

end TransferRequest

/-- The error of a request under the key of another one. -/
def idempotencyConflict : PgError :=
  ⟨"23505", "controlled_transfer_idempotency", "controlled transfer idempotency conflict"⟩

/-- The answer to a request whose key is taken: the stored outcome of the same request. -/
def replayTransfer (p : TransferRequest) (prior : IdempotencyRequest) : Proc (Json × Bool) := do
  Txn.raiseIf (prior.requestFingerprint ≠ p.requestFingerprint) idempotencyConflict
  let body ← Txn.orRaise
    (if prior.state = .completed ∨ prior.state = .failed then prior.responseBody else none)
    ⟨"55000", "controlled_transfer_in_progress", "controlled transfer request is already in progress"⟩
  pure (body, true)

/-! ## Policy and account checks -/

/-- An account of the tenant joined with its balance. -/
def Db.account? (s : Db) (tenant account : Uuid) : Option (Account × Balance) :=
  match s.accounts.find? account, s.balances.find? account with
  | some a, some b => if a.tenantId = tenant then some (a, b) else none
  | _, _ => none

/-- The checks of a fresh request: currency, policy, accounts and permissions. They give the
policy and the balances of the two accounts. -/
def admitTransfer (p : TransferRequest) : Proc (TransferPolicy × Balance × Balance) := do
  let s ← Txn.get
  Txn.raiseIf (p.currency ≠ p.pilotCurrency) ⟨"22023", "controlled_transfer_currency",
    "controlled transfer currency is outside the configured pilot"⟩
  let policy ← Txn.orRaise (s.settings.transferPolicies.find? p.tenantId)
    ⟨"22023", "controlled_transfer_policy_missing", "controlled transfer policy is missing"⟩
  Txn.raiseIf (policy.currency ≠ p.currency) ⟨"22023", "controlled_transfer_currency",
    "controlled transfer policy does not authorize currency"⟩
  Txn.raiseIf ((p.amount : ℤ) < policy.minimumTransfer) ⟨"22023",
    "controlled_transfer_amount_minimum", "controlled transfer amount is below policy minimum"⟩
  Txn.raiseIf ((policy.maximumTransfer : ℤ) < p.amount) ⟨"22023",
    "controlled_transfer_amount_maximum", "controlled transfer amount exceeds policy maximum"⟩
  let source ← Txn.orRaise (s.account? p.tenantId p.debitAccountId)
    ⟨"42501", "controlled_transfer_tenant", "controlled transfer account boundary denied"⟩
  let destination ← Txn.orRaise (s.account? p.tenantId p.creditAccountId)
    ⟨"42501", "controlled_transfer_tenant", "controlled transfer account boundary denied"⟩
  Txn.raiseIf (source.1.status ≠ .active ∨ destination.1.status ≠ .active)
    ⟨"55000", "controlled_transfer_account_status", "controlled transfer account is inactive"⟩
  Txn.raiseIf (source.1.currency ≠ p.currency ∨ destination.1.currency ≠ p.currency)
    ⟨"22023", "controlled_transfer_account_currency",
      "controlled transfer account currency mismatch"⟩
  Txn.raiseIf (¬s.settings.OwnsDebit p.tenantId p.debitAccountId p.actorSubjectId)
    ⟨"42501", "controlled_transfer_source_actor",
      "controlled transfer source authorization denied"⟩
  Txn.raiseIf (¬s.settings.MayCredit p.tenantId p.creditAccountId p.actorSubjectId)
    ⟨"42501", "controlled_transfer_destination_actor",
      "controlled transfer destination authorization denied"⟩
  pure (policy, source.2, destination.2)

/-! ## Rolling velocity -/

/-- The reference of an event in a dimension. -/
def VelocityEvent.reference (e : VelocityEvent) : Dimension → String
  | .tenant => e.tenantId.text
  | .actor => e.actorSubjectId
  | .source => e.sourceAccountId.text

/-- The event counts towards a total. -/
def VelocityEvent.CountsFor (e : VelocityEvent) (tenant : Uuid) (d : Dimension) (ref : String) :
    Prop :=
  e.tenantId = tenant ∧ e.reference d = ref

/-- Whether an event counts for a reference can be decided. -/
instance (e : VelocityEvent) (t : Uuid) (d : Dimension) (r : String) :
    Decidable (e.CountsFor t d r) := inferInstanceAs (Decidable (_ ∧ _))

/-- The reference of a request in a dimension. -/
def TransferRequest.reference (p : TransferRequest) : Dimension → String
  | .tenant => p.tenantId.text
  | .actor => p.actorSubjectId
  | .source => p.debitAccountId.text

/-- `INSERT … VALUES (…, 0, …) ON CONFLICT DO NOTHING`. -/
def touchTotal (tenant : Uuid) (now : Instant) (t : Table VelocityTotal.key) (d : Dimension)
    (ref : String) : Table VelocityTotal.key :=
  (t.insert? ⟨tenant, d, ref, 0, now⟩).getD t

/-- `INSERT … ON CONFLICT DO UPDATE SET total_minor = total_minor + EXCLUDED.total_minor`. -/
def addTotal (tenant : Uuid) (now : Instant) (amount : ℤ) (t : Table VelocityTotal.key)
    (d : Dimension) (ref : String) : Table VelocityTotal.key :=
  (touchTotal tenant now t d ref).update (tenant, d, ref)
    fun v => { v with total := v.total + amount, updatedAt := now }

/-- The event has expired for a caller at `now`. -/
def VelocityEvent.expired (tenant : Uuid) (now : Instant) (e : VelocityEvent) : Bool :=
  e.tenantId = tenant ∧ e.expiresAt ≤ now

/-- What the expired events take from a total; nothing when none of them counts for it. -/
def deduction? (expired : List VelocityEvent) (v : VelocityTotal) : Option ℤ :=
  match expired.filter fun e => e.CountsFor v.tenantId v.dimension v.reference with
  | [] => none
  | es => some (es.map fun e => (e.amount : ℤ)).sum

/-- A total after the deduction of the expired events. -/
def deduct (now : Instant) (expired : List VelocityEvent) (v : VelocityTotal) : VelocityTotal :=
  match deduction? expired v with
  | none => v
  | some d => { v with total := v.total - d, updatedAt := now }

/-- The total that a reference has reached; a missing row counts zero. -/
def Db.velocityTotal (s : Db) (tenant : Uuid) (d : Dimension) (ref : String) : ℤ :=
  ((s.velocityTotals.find? (tenant, d, ref)).map VelocityTotal.total).getD 0

/-- The totals of a request, each with a row. -/
def touchedTotals (p : TransferRequest) (t : Table VelocityTotal.key) : Table VelocityTotal.key :=
  touchTotal p.tenantId p.now (touchTotal p.tenantId p.now
    (touchTotal p.tenantId p.now t .tenant (p.reference .tenant))
    .actor (p.reference .actor)) .source (p.reference .source)

/-- The events that a request finds expired. -/
def expiredEvents (p : TransferRequest) (t : Table VelocityEvent.transferId) :
    List VelocityEvent :=
  t.rows.filter (VelocityEvent.expired p.tenantId p.now)

/-- The three totals of the request made sure of, and the expired events deleted and deducted. -/
def pruneVelocity (p : TransferRequest) : Proc Unit := do
  let s ← Txn.get
  let touched := touchedTotals p s.velocityTotals
  let expired := expiredEvents p s.velocityEvents
  Txn.raiseIf (∃ v ∈ touched.rows, ¬Bigint.Fits (deduct p.now expired v).total) outOfRange
  Txn.raiseIf (∃ v ∈ touched.rows, (deduct p.now expired v).total < 0)
    (checkViolation "transfer_velocity_totals_total_minor_check")
  Txn.set { s with
    velocityTotals := touched.mapRows (deduct p.now expired)
      (by intro v; unfold deduct; split <;> rfl)
    velocityEvents := s.velocityEvents.delete (VelocityEvent.expired p.tenantId p.now) }

/-- The rolling limit of a dimension. -/
def TransferPolicy.rollingLimit (policy : TransferPolicy) : Dimension → Bigint
  | .actor => policy.actorRolling24h
  | .source => policy.sourceAccountRolling24h
  | .tenant => policy.tenantRolling24h

/-- The request would exceed the rolling limit of a dimension. -/
def Db.OverLimit (s : Db) (p : TransferRequest) (policy : TransferPolicy) (d : Dimension) : Prop :=
  (policy.rollingLimit d : ℤ) - p.amount < s.velocityTotal p.tenantId d (p.reference d)

/-- Whether a request is over a limit can be decided. -/
instance (s : Db) (p : TransferRequest) (policy : TransferPolicy) (d : Dimension) :
    Decidable (s.OverLimit p policy d) := inferInstanceAs (Decidable (_ < _))

/-- The limit checks, in the order of the source. -/
def checkVelocity (p : TransferRequest) (policy : TransferPolicy) : Proc Unit := do
  let s ← Txn.get
  Txn.raiseIf (s.OverLimit p policy .actor) ⟨"22023", "controlled_transfer_actor_velocity",
    "controlled transfer actor rolling limit exceeded"⟩
  Txn.raiseIf (s.OverLimit p policy .source) ⟨"22023", "controlled_transfer_source_velocity",
    "controlled transfer source rolling limit exceeded"⟩
  Txn.raiseIf (s.OverLimit p policy .tenant) ⟨"22023", "controlled_transfer_tenant_velocity",
    "controlled transfer tenant rolling limit exceeded"⟩

/-- The velocity event of a posted transfer. -/
def velocityEvent (p : TransferRequest) (transfer : Uuid) : VelocityEvent where
  transferId := transfer
  tenantId := p.tenantId
  actorSubjectId := p.actorSubjectId
  sourceAccountId := p.debitAccountId
  amount := p.amount
  occurredAt := p.now
  expiresAt := p.now + day

/-- The totals after a posted transfer is added. -/
def chargedTotals (p : TransferRequest) (t : Table VelocityTotal.key) : Table VelocityTotal.key :=
  addTotal p.tenantId p.now p.amount (addTotal p.tenantId p.now p.amount
    (addTotal p.tenantId p.now p.amount t .tenant (p.reference .tenant))
    .actor (p.reference .actor)) .source (p.reference .source)

/-- The posted transfer recorded in the velocity tables. -/
def recordVelocity (p : TransferRequest) (transfer : Uuid) : Proc Unit := do
  insertRow Db.velocityEvents (fun t s => { s with velocityEvents := t })
    "transfer_velocity_events_pkey" (velocityEvent p transfer)
  let s ← Txn.get
  let totals := chargedTotals p s.velocityTotals
  Txn.raiseIf (∃ v ∈ totals.rows, ¬Bigint.Fits v.total) outOfRange
  Txn.set { s with velocityTotals := totals }

/-! ## Outcomes -/

/-- The new transfer, pending; there is none when the row fails its checks. -/
def pendingTransfer? (p : TransferRequest) (policy : TransferPolicy) (id : Uuid) :
    Option Transfer :=
  if h : 0 < (p.amount : ℤ) ∧ p.debitAccountId ≠ p.creditAccountId then
    some {
      id := id
      tenantId := p.tenantId
      actorSubjectId := p.actorSubjectId
      debitAccountId := p.debitAccountId
      creditAccountId := p.creditAccountId
      amount := p.amount
      currency := p.currency
      status := .pending
      rejectionCode := none
      journalTransactionId := none
      createdAt := p.now
      completedAt := none
      policyVersion := policy.policyVersion
      compensationOfTransferId := none
      amount_pos := h.1
      distinct := h.2 }
  else none

/-- A pending transfer rejected. -/
def Transfer.reject (x : Transfer) (now : Instant) : Transfer :=
  { x with status := .rejected, rejectionCode := some "insufficient_funds", completedAt := some now }

/-- A pending transfer posted under a journal. -/
def Transfer.post (x : Transfer) (journal : Uuid) (now : Instant) : Transfer :=
  { x with status := .posted, journalTransactionId := some journal, completedAt := some now }

/-- The audit event of an outcome. -/
def transferAudit (p : TransferRequest) (ids : TransferIds) (eventType outcome : String) :
    AuditEvent where
  id := ids.audit
  tenantId := p.tenantId
  actorSubjectId := some p.actorSubjectId
  eventType := eventType
  targetType := "transfer"
  targetId := some ids.transfer.text
  outcome := outcome
  correlationId := p.correlationId
  metadata := .obj [("transfer_id", .str ids.transfer.text),
    ("function", .str "controlled_submit_transfer_v1")]
  occurredAt := p.now

/-- The response of a rejected request. -/
def rejectedBody (p : TransferRequest) (ids : TransferIds) : Json :=
  .obj [("transfer_id", .str ids.transfer.text), ("status", .str "rejected"),
    ("currency", .str p.currency), ("amount_minor", .str p.amount.text),
    ("occurred_at", .str (utcText p.occurredAt)), ("minimum_balance_versions", .obj []),
    ("rejection_code", .str "insufficient_funds")]

/-- The response of a posted request, with the receipt of the source balance. -/
def postedBody (p : TransferRequest) (ids : TransferIds) (source : Balance) : Json :=
  .obj [("transfer_id", .str ids.transfer.text), ("status", .str "posted"),
    ("currency", .str p.currency), ("amount_minor", .str p.amount.text),
    ("occurred_at", .str (utcText p.occurredAt)),
    ("minimum_balance_versions", .obj [(p.debitAccountId.text, .str source.version.text)]),
    ("balances", .obj [(p.debitAccountId.text, .obj [
      ("account_id", .str p.debitAccountId.text), ("currency", .str p.currency),
      ("posted_minor", .str source.ledger.text), ("available_minor", .str source.available.text),
      ("reserved_minor", .str (decimal (source.ledger - source.available))),
      ("version", .str source.version.text), ("as_of", .str (utcText p.occurredAt))])])]

/-- The rejection of a request that the source balance does not cover. -/
def rejectTransfer (p : TransferRequest) (ids : TransferIds) (x : Transfer) : Proc Json := do
  let s ← Txn.get
  Txn.set { s with transfers := s.transfers.replace (x.reject p.now) }
  insertAudit (transferAudit p ids "transfer.rejected" "failed")
  pure (rejectedBody p ids)

/-- The journal of a posted transfer. -/
def transferJournal (tenant : Uuid) (now : Instant) (journal transfer : Uuid) : Journal where
  id := journal
  tenantId := tenant
  transferId := some transfer
  fundingEventId := none
  sourceType := .transfer
  sourceId := transfer
  occurredAt := now

/-- The balance event of one account of a transfer. -/
def transferBalanceEvent (tenant eventId account transfer : Uuid) (currency : String) (b : Balance)
    (occurredAt : Timestamp) (amount : Option ℤ) : OutboxEvent where
  id := eventId
  tenantId := tenant
  transferId := some transfer
  fundingEventId := none
  openingImportId := none
  holdId := none
  accountId := some account
  aggregateType := "account_balance"
  aggregateId := account
  eventType := balanceChangedV1
  aggregateVersion := b.version
  payload := balancePayload eventId account "transfer_id" transfer currency b occurredAt amount
  occurredAt := instant occurredAt

/-- The payload that webhooks receive. -/
def transferPostedPayload (p : TransferRequest) (ids : TransferIds) : Json :=
  .obj [("event_id", .str ids.transferEvent.text), ("event_type", .str "transfer.posted"),
    ("transfer_id", .str ids.transfer.text), ("debit_account_id", .str p.debitAccountId.text),
    ("credit_account_id", .str p.creditAccountId.text), ("amount_minor", .str p.amount.text),
    ("currency", .str p.currency), ("occurred_at", .str (utcText p.occurredAt)),
    ("delivery_semantics", .str "at_least_once"),
    ("deduplication_event_id", .str ids.transferEvent.text)]

/-- The event that reports the transfer itself. -/
def transferPostedEvent (p : TransferRequest) (ids : TransferIds) : OutboxEvent where
  id := ids.transferEvent
  tenantId := p.tenantId
  transferId := some ids.transfer
  fundingEventId := none
  openingImportId := none
  holdId := none
  accountId := none
  aggregateType := "transfer"
  aggregateId := ids.transfer
  eventType := "transfer.posted.v1"
  aggregateVersion := 1
  payload := transferPostedPayload p ids
  occurredAt := p.now

/-- The delivery job of one endpoint. -/
def webhookJob (p : TransferRequest) (ids : TransferIds) (e : WebhookEndpoint) : WebhookJob where
  id := ids.webhookJob e.id
  tenantId := p.tenantId
  transferId := ids.transfer
  outboxEventId := ids.transferEvent
  webhookId := e.id
  eventId := ids.transferEvent
  eventType := "transfer.posted"
  payload := transferPostedPayload p ids
  availableAt := p.now

/-- Delivery jobs for a list of endpoints, one row after another. -/
def enqueueWebhooks (p : TransferRequest) (ids : TransferIds) : List WebhookEndpoint → Proc Unit
  | [] => pure ()
  | e :: es => do
    let s ← Txn.get
    Txn.raiseIf (∃ j ∈ s.webhookJobs.rows, j.outboxEventId = ids.transferEvent ∧ j.webhookId = e.id)
      (uniqueViolation "webhook_delivery_jobs_initial_event_endpoint_idx")
    insertRow Db.webhookJobs (fun t s => { s with webhookJobs := t }) "webhook_delivery_jobs_pkey"
      (webhookJob p ids e)
    enqueueWebhooks p ids es

/-- The endpoints that a posted transfer is delivered to. -/
def Settings.subscribers (c : Settings) (tenant : Uuid) : List WebhookEndpoint :=
  c.webhookEndpoints.rows.filter fun e =>
    e.tenantId = tenant ∧ e.active = true ∧ "transfer.posted" ∈ e.subscribedEvents

/-- A posting of a transfer or of a correction. -/
def transferPosting (tenant id journal account : Uuid) (direction : Direction) (amount : Bigint)
    (currency : String) (now : Instant) : Posting :=
  ⟨id, journal, tenant, account, direction, amount, currency, now⟩

/-- The events of a posted transfer: both balances, the transfer, and its webhooks. -/
def publishTransfer (p : TransferRequest) (ids : TransferIds) (source destination : Balance) :
    Proc Unit := do
  insertOutbox (transferBalanceEvent p.tenantId ids.sourceEvent p.debitAccountId ids.transfer
    p.currency source p.occurredAt none)
  insertOutbox (transferBalanceEvent p.tenantId ids.destinationEvent p.creditAccountId ids.transfer
    p.currency destination p.occurredAt none)
  insertOutbox (transferPostedEvent p ids)
  let s ← Txn.get
  enqueueWebhooks p ids (s.settings.subscribers p.tenantId)

/-- The posting of a request that the source balance covers. -/
def postTransfer (p : TransferRequest) (ids : TransferIds) (x : Transfer) : Proc Json := do
  insertJournal (transferJournal p.tenantId p.now ids.journal ids.transfer)
  insertPosting (transferPosting p.tenantId ids.debitPosting ids.journal p.debitAccountId .debit
    p.amount p.currency p.now)
  insertPosting (transferPosting p.tenantId ids.creditPosting ids.journal p.creditAccountId .credit
    p.amount p.currency p.now)
  let source ← debitBalance p.debitAccountId p.amount p.now
    ⟨"40001", "controlled_transfer_source_balance", "controlled transfer source balance changed"⟩
  let destination ← creditBalance p.creditAccountId p.amount p.now
  let s ← Txn.get
  Txn.raiseIf (∃ y ∈ s.transfers.rows, y.journalTransactionId = some ids.journal)
    (uniqueViolation "transfers_journal_transaction_id_key")
  Txn.set { s with transfers := s.transfers.replace (x.post ids.journal p.now) }
  recordVelocity p ids.transfer
  insertAudit (transferAudit p ids "transfer.posted" "succeeded")
  publishTransfer p ids source destination
  pure (postedBody p ids source)

/-- The outcome stored with the reservation. -/
def completeRequest (p : TransferRequest) (transfer : Uuid) (body : Json) : Proc Unit := do
  let s ← Txn.get
  Txn.raiseIf (¬∃ r, s.idempotencyRequests.find? p.key = some r ∧ r.state = .inProgress)
    ⟨"40001", "controlled_transfer_outcome", "controlled transfer outcome reservation was lost"⟩
  Txn.set { s with
    idempotencyRequests := s.idempotencyRequests.update p.key (p.complete transfer body) }

/-- The outcome that the source balance decides. -/
def settleTransfer (p : TransferRequest) (ids : TransferIds) (x : Transfer) (source : Balance) :
    Proc Json :=
  if (source.available : ℤ) < p.amount ∨ (source.ledger : ℤ) < p.amount
  then rejectTransfer p ids x
  else postTransfer p ids x

/-- A fresh request, from its reservation to its outcome. -/
def executeTransfer (p : TransferRequest) (ids : TransferIds) : Proc (Json × Bool) := do
  insertRequest p.reservation
  let (policy, source, _) ← admitTransfer p
  pruneVelocity p
  checkVelocity p policy
  let x ← Txn.orRaise (pendingTransfer? p policy ids.transfer) (checkViolation "transfers_check")
  insertTransfer x
  let body ← settleTransfer p ids x source
  completeRequest p ids.transfer body
  pure (body, false)

/-- The checks that come before the key is looked up. -/
def guardTransfer (d : Digest) (sess : Session) (p : TransferRequest) : Proc Unit := do
  Txn.raiseIf (¬sess.Allows p.tenantId ∨ p.actorSubjectId ≠ sess.actorId)
    ⟨"42501", "controlled_transfer_actor", "controlled command scope denied"⟩
  Txn.raiseIf (¬p.WellFormed)
    ⟨"22023", "controlled_transfer_input", "controlled transfer input is invalid"⟩
  Txn.raiseIf (p.requestFingerprint ≠ d.sha256 p.canonical)
    ⟨"22023", "controlled_transfer_fingerprint", "controlled transfer fingerprint is invalid"⟩
  let s ← Txn.get
  Txn.raiseIf (p.tenantId ∉ s.settings.tenants)
    ⟨"42501", "controlled_transfer_tenant", "controlled transfer tenant boundary denied"⟩
  Txn.raiseIf (¬s.settings.HasRole p.tenantId p.actorSubjectId [.operator, .finance])
    ⟨"42501", "controlled_transfer_actor", "controlled transfer actor is not authorized"⟩

/-- `controlled_submit_transfer_v1`: the response body, and whether it is a replay. -/
def controlledSubmitTransferV1 (d : Digest) (sess : Session) (p : TransferRequest)
    (ids : TransferIds) : Proc (Json × Bool) := do
  guardTransfer d sess p
  let s ← Txn.get
  match s.idempotencyRequests.find? p.key with
  | some prior => replayTransfer p prior
  | none => executeTransfer p ids

/-! ## What a returning call did -/

/-- The checks of a fresh request, passed. -/
structure Admitted (s : Db) (p : TransferRequest) (policy : TransferPolicy)
    (source destination : Balance) : Prop where
  pilot : p.currency = p.pilotCurrency
  policy_find : s.settings.transferPolicies.find? p.tenantId = some policy
  policy_currency : policy.currency = p.currency
  minimum_le : (policy.minimumTransfer : ℤ) ≤ p.amount
  le_maximum : (p.amount : ℤ) ≤ policy.maximumTransfer
  source_find : ∃ a, s.account? p.tenantId p.debitAccountId = some (a, source) ∧
    a.status = .active ∧ a.currency = p.currency
  destination_find : ∃ a, s.account? p.tenantId p.creditAccountId = some (a, destination) ∧
    a.status = .active ∧ a.currency = p.currency
  owns : s.settings.OwnsDebit p.tenantId p.debitAccountId p.actorSubjectId
  may : s.settings.MayCredit p.tenantId p.creditAccountId p.actorSubjectId

/-- An account is found with its balance in its own tenant. -/
theorem Db.account?_eq_some {s : Db} {tenant account : Uuid} {a : Account} {b : Balance} :
    s.account? tenant account = some (a, b) ↔ s.accounts.find? account = some a ∧
      s.balances.find? account = some b ∧ a.tenantId = tenant := by
  unfold Db.account?
  split
  · rename_i a' b' ha hb
    simp only [ha, hb, Option.some.injEq, Option.ite_none_right_eq_some, Prod.mk.injEq]
    constructor
    · rintro ⟨ht, rfl, rfl⟩
      exact ⟨rfl, rfl, ht⟩
    · rintro ⟨rfl, rfl, ht⟩
      exact ⟨ht, rfl, rfl⟩
  · rename_i hno
    simp only [reduceCtorEq, false_iff]
    rintro ⟨ha, hb, -⟩
    exact hno a b ha hb

/-- The checks return exactly when they are passed, and they write nothing. -/
theorem admitTransfer_ok {p : TransferRequest} {s s' : Db} {policy : TransferPolicy}
    {source destination : Balance} :
    admitTransfer p s = .ok ((policy, source, destination), s') ↔
      s = s' ∧ Admitted s p policy source destination := by
  simp only [admitTransfer, Txn.get_bind_ok, Txn.raiseIf_bind_ok, Txn.orRaise_bind_ok, Txn.pure_ok,
    not_not, not_or, not_lt, ne_eq]
  constructor
  · rintro ⟨hpilot, pol, hpol, hcur, hmin, hmax, ⟨a, src⟩, hsrc, ⟨b, dst⟩, hdst, ⟨hsa, hsb⟩,
      ⟨hca, hcb⟩, howns, hmay, heq, hs⟩
    simp only [Prod.mk.injEq] at heq
    obtain ⟨rfl, rfl, rfl⟩ := heq
    exact ⟨hs, hpilot, hpol, hcur, hmin, hmax, ⟨a, hsrc, hsa, hca⟩, ⟨b, hdst, hsb, hcb⟩, howns, hmay⟩
  · rintro ⟨rfl, h⟩
    obtain ⟨a, hsrc, hsa, hca⟩ := h.source_find
    obtain ⟨b, hdst, hsb, hcb⟩ := h.destination_find
    exact ⟨h.pilot, policy, h.policy_find, h.policy_currency, h.minimum_le, h.le_maximum,
      (a, source), hsrc, (b, destination), hdst, ⟨hsa, hsb⟩, ⟨hca, hcb⟩, h.owns, h.may, rfl, rfl⟩

/-- The database after the expired events are deducted and deleted. -/
def Db.prune (s : Db) (p : TransferRequest) : Db :=
  { s with
    velocityTotals := (touchedTotals p s.velocityTotals).mapRows
      (deduct p.now (expiredEvents p s.velocityEvents))
      (by intro v; unfold deduct; split <;> rfl)
    velocityEvents := s.velocityEvents.delete (VelocityEvent.expired p.tenantId p.now) }

/-- Every total is a non-negative `bigint` after the deduction. -/
def Db.Prunable (s : Db) (p : TransferRequest) : Prop :=
  ∀ v ∈ touchedTotals p s.velocityTotals,
    Bigint.Fits (deduct p.now (expiredEvents p s.velocityEvents) v).total ∧
      0 ≤ (deduct p.now (expiredEvents p s.velocityEvents) v).total

/-- Pruning returns when the totals can be deducted from, and then it has pruned. -/
theorem pruneVelocity_ok {p : TransferRequest} {s s' : Db} {u : Unit} :
    pruneVelocity p s = .ok (u, s') ↔ s.Prunable p ∧ s.prune p = s' := by
  simp only [pruneVelocity, Txn.get_bind_ok, Txn.raiseIf_bind_ok, Txn.set_ok, not_exists, not_and,
    not_not, not_lt]
  constructor
  · rintro ⟨hfits, hpos, hs⟩
    exact ⟨fun v hv => ⟨hfits v hv, hpos v hv⟩, hs⟩
  · rintro ⟨h, hs⟩
    exact ⟨fun v hv => (h v hv).1, fun v hv => (h v hv).2, hs⟩

/-- The check passes when no limit is exceeded, and changes nothing. -/
theorem checkVelocity_ok {p : TransferRequest} {policy : TransferPolicy} {s s' : Db} {u : Unit} :
    checkVelocity p policy s = .ok (u, s') ↔ (∀ d, ¬s.OverLimit p policy d) ∧ s = s' := by
  simp only [checkVelocity, Txn.get_bind_ok, Txn.raiseIf_bind_ok, Txn.raiseIf_ok]
  constructor
  · rintro ⟨ha, hsrc, ht, rfl⟩
    refine ⟨fun d => ?_, rfl⟩
    cases d
    · exact ht
    · exact ha
    · exact hsrc
  · rintro ⟨h, rfl⟩
    exact ⟨h .actor, h .source, h .tenant, rfl⟩

/-- The webhooks of a transfer are new jobs, and nothing else changes. -/
theorem enqueueWebhooks_ok {p : TransferRequest} {ids : TransferIds} {es : List WebhookEndpoint}
    {s s' : Db} {u : Unit} (h : enqueueWebhooks p ids es s = .ok (u, s')) :
    ∃ w, { s with webhookJobs := w } = s' := by
  induction es generalizing s with
  | nil => exact ⟨s.webhookJobs, (Txn.pure_ok.mp h).2⟩
  | cons e es ih =>
    simp only [enqueueWebhooks, Txn.get_bind_ok, Txn.raiseIf_bind_ok, insertRow_bind_ok] at h
    obtain ⟨-, t, -, h⟩ := h
    obtain ⟨w, rfl⟩ := ih h
    exact ⟨w, rfl⟩

/-- What the publication of a posted transfer wrote. -/
theorem publishTransfer_ok {p : TransferRequest} {ids : TransferIds} {source destination : Balance}
    {s s' : Db} {u : Unit} (h : publishTransfer p ids source destination s = .ok (u, s')) :
    ∃ e₁ e₂ t₁ t₂ t₃ w,
      enrichReservedBalanceEventV1 s (transferBalanceEvent p.tenantId ids.sourceEvent
        p.debitAccountId ids.transfer p.currency source p.occurredAt none) = some e₁ ∧
      enrichReservedBalanceEventV1 s (transferBalanceEvent p.tenantId ids.destinationEvent
        p.creditAccountId ids.transfer p.currency destination p.occurredAt none) = some e₂ ∧
      s.outbox.insert? e₁ = some t₁ ∧ t₁.insert? e₂ = some t₂ ∧
      t₂.insert? (transferPostedEvent p ids) = some t₃ ∧
      { s with outbox := t₃, webhookJobs := w } = s' := by
  simp only [publishTransfer, Txn.bind_ok, insertOutbox_ok, Txn.get_ok] at h
  obtain ⟨_, _, ⟨e₁, he₁, -, t₁, ht₁, rfl⟩, _, _, ⟨e₂, he₂, -, t₂, ht₂, rfl⟩, _, _,
    ⟨e₃, he₃, -, t₃, ht₃, rfl⟩, _, _, ⟨rfl, rfl⟩, h⟩ := h
  obtain ⟨w, rfl⟩ := enqueueWebhooks_ok h
  cases he₃
  exact ⟨e₁, e₂, t₁, t₂, t₃, w, he₁, he₂, ht₁, ht₂, ht₃, rfl⟩

/-- What the posting of a transfer wrote, from the database before it to the one after. -/
structure Posting.Pair (s : Db) (tenant journal debitId creditId debitAccount creditAccount : Uuid)
    (amount : Bigint) (currency : String) (now : Instant) (t : Table Posting.id) : Prop where
  /-- Both rows were new. -/
  rows : ∃ t₁, s.postings.insert? (transferPosting tenant debitId journal debitAccount .debit amount
    currency now) = some t₁ ∧ t₁.insert? (transferPosting tenant creditId journal creditAccount
    .credit amount currency now) = some t
  /-- Both accounts hold the currency. -/
  debit_currency : ∃ a, s.accounts.find? debitAccount = some a ∧ a.currency = currency
  credit_currency : ∃ a, s.accounts.find? creditAccount = some a ∧ a.currency = currency

/-- An amount moved from one balance to another: the rows before and after. -/
structure Balance.Move (t t' : Table Balance.accountId) (debitAccount creditAccount : Uuid)
    (amount : ℤ) (now : Instant) (source source' destination destination' : Balance) : Prop where
  source_find : t.find? debitAccount = some source
  source_written : source.Written source' (source.available - amount) (source.ledger - amount)
    (source.version + 1) now
  destination_find : (t.replace source').find? creditAccount = some destination
  destination_written : destination.Written destination' (destination.available + amount)
    (destination.ledger + amount) (destination.version + 1) now
  result : t' = (t.replace source').replace destination'

namespace Balance.Move

variable {t t' : Table Balance.accountId} {debitAccount creditAccount : Uuid} {amount : ℤ}
  {now : Instant} {source source' destination destination' : Balance}

/-- The debited account has its new row. -/
theorem find?_debit (h : Balance.Move t t' debitAccount creditAccount amount now source source'
    destination destination') (hne : debitAccount ≠ creditAccount) :
    t'.find? debitAccount = some source' := by
  rw [h.result, h.destination_written.find?_replace_ne h.destination_find hne]
  exact h.source_written.find?_replace h.source_find

/-- The credited account had the row that was rewritten. -/
theorem find?_credit_before (h : Balance.Move t t' debitAccount creditAccount amount now source
    source' destination destination') (hne : debitAccount ≠ creditAccount) :
    t.find? creditAccount = some destination := by
  rw [← h.source_written.find?_replace_ne h.source_find hne.symm]
  exact h.destination_find

/-- The credited account has its new row. -/
theorem find?_credit (h : Balance.Move t t' debitAccount creditAccount amount now source source'
    destination destination') : t'.find? creditAccount = some destination' := by
  rw [h.result]
  exact h.destination_written.find?_replace h.destination_find

/-- Every other account keeps its row. -/
theorem find?_other (h : Balance.Move t t' debitAccount creditAccount amount now source source'
    destination destination') {x : Uuid} (hd : x ≠ debitAccount) (hc : x ≠ creditAccount) :
    t'.find? x = t.find? x := by
  rw [h.result, h.destination_written.find?_replace_ne h.destination_find hc]
  exact h.source_written.find?_replace_ne h.source_find hd

end Balance.Move

/-- What the posting of a transfer wrote. -/
theorem postTransfer_ok {p : TransferRequest} {ids : TransferIds} {x : Transfer} {s s' : Db}
    {body : Json} (h : postTransfer p ids x s = .ok (body, s')) :
    ∃ source source' destination destination' e₁ e₂ t₁ t₂ balances journals postings
      velocityEvents outbox audit webhookJobs,
      (¬∃ j ∈ s.journals.rows,
        (transferJournal p.tenantId p.now ids.journal ids.transfer).SameSource j) ∧
      s.journals.insert? (transferJournal p.tenantId p.now ids.journal ids.transfer) = some journals ∧
      Posting.Pair s p.tenantId ids.journal ids.debitPosting ids.creditPosting p.debitAccountId
        p.creditAccountId p.amount p.currency p.now postings ∧
      Balance.Move s.balances balances p.debitAccountId p.creditAccountId p.amount p.now
        source source' destination destination' ∧
      (¬∃ y ∈ s.transfers.rows, y.journalTransactionId = some ids.journal) ∧
      s.velocityEvents.insert? (velocityEvent p ids.transfer) = some velocityEvents ∧
      (∀ v ∈ chargedTotals p s.velocityTotals, Bigint.Fits v.total) ∧
      s.audit.insert? (transferAudit p ids "transfer.posted" "succeeded") = some audit ∧
      enrichReservedBalanceEventV1 { s with balances := balances }
        (transferBalanceEvent p.tenantId ids.sourceEvent p.debitAccountId ids.transfer p.currency
          source' p.occurredAt none) = some e₁ ∧
      enrichReservedBalanceEventV1 { s with balances := balances }
        (transferBalanceEvent p.tenantId ids.destinationEvent p.creditAccountId ids.transfer
          p.currency destination' p.occurredAt none) = some e₂ ∧
      s.outbox.insert? e₁ = some t₁ ∧ t₁.insert? e₂ = some t₂ ∧
      t₂.insert? (transferPostedEvent p ids) = some outbox ∧
      body = postedBody p ids source' ∧
      s' = { s with
        balances := balances, journals := journals, postings := postings
        transfers := s.transfers.replace (x.post ids.journal p.now)
        velocityEvents := velocityEvents, velocityTotals := chargedTotals p s.velocityTotals
        outbox := outbox, audit := audit, webhookJobs := webhookJobs } := by
  simp only [postTransfer, insertJournal, insertPosting, insertAudit, recordVelocity, Txn.bind_assoc,
    Txn.get_bind_ok, Txn.raiseIf_bind_ok, insertRow_bind_ok, not_not] at h
  -- The journal and both postings are new.
  obtain ⟨hsame, journals, hj, hda, t₁, hp₁, hca, postings, hp₂, h⟩ := h
  obtain ⟨source', _, hdebit, h⟩ := Txn.bind_ok.mp h
  obtain ⟨destination', _, hcredit, h⟩ := Txn.bind_ok.mp h
  -- Nothing is written to the transfers yet, so that the journal is checked against all of them.
  simp only [Txn.get_bind_ok, Txn.raiseIf_bind_ok, insertRow_bind_ok, Txn.set_bind_ok, not_exists,
    not_and, not_not] at h
  obtain ⟨hjournal, velocityEvents, hv, hfits, audit, ha, h⟩ := h
  obtain ⟨_, _, hpublish, h⟩ := Txn.bind_ok.mp h
  obtain ⟨rfl, rfl⟩ := Txn.pure_ok.mp h
  obtain ⟨source, hsource, -, -, hw, rfl⟩ := debitBalance_ok hdebit
  obtain ⟨destination, hdest, hw', rfl⟩ := creditBalance_ok hcredit
  obtain ⟨e₁, e₂, o₁, o₂, o₃, w, he₁, he₂, ho₁, ho₂, ho₃, rfl⟩ := publishTransfer_ok hpublish
  -- No other transfer has taken this journal.
  have hunused : ¬∃ y ∈ s.transfers.rows, y.journalTransactionId = some ids.journal := by
    rintro ⟨y, hy, hyj⟩
    exact hjournal y hy hyj
  exact ⟨source, source', destination, destination', e₁, e₂, o₁, o₂, _, journals, postings,
    velocityEvents, o₃, audit, w, hsame, hj, ⟨⟨t₁, hp₁, hp₂⟩, hda, hca⟩,
    ⟨hsource, hw, hdest, hw', rfl⟩, hunused, hv, hfits, ha, he₁, he₂, ho₁, ho₂, ho₃, rfl, rfl⟩

/-- The checks before the key is looked up, passed. -/
structure Guarded (d : Digest) (sess : Session) (p : TransferRequest) (s : Db) : Prop where
  scope : sess.Allows p.tenantId
  actor : p.actorSubjectId = sess.actorId
  wellFormed : p.WellFormed
  fingerprint : p.requestFingerprint = d.sha256 p.canonical
  tenant : p.tenantId ∈ s.settings.tenants
  role : s.settings.HasRole p.tenantId p.actorSubjectId [.operator, .finance]

/-- The first checks pass when the call is guarded, and change nothing. -/
theorem guardTransfer_ok {d : Digest} {sess : Session} {p : TransferRequest} {s s' : Db}
    {u : Unit} : guardTransfer d sess p s = .ok (u, s') ↔ Guarded d sess p s ∧ s = s' := by
  simp only [guardTransfer, Txn.get_bind_ok, Txn.raiseIf_bind_ok, Txn.raiseIf_ok, not_or, not_not,
    ne_eq]
  constructor
  · rintro ⟨⟨hscope, hactor⟩, hwell, hfp, htenant, hrole, rfl⟩
    exact ⟨⟨hscope, hactor, hwell, hfp, htenant, hrole⟩, rfl⟩
  · rintro ⟨h, rfl⟩
    exact ⟨⟨h.scope, h.actor⟩, h.wellFormed, h.fingerprint, h.tenant, h.role, rfl⟩

/-- A call under a key that is taken, returning the stored outcome. -/
structure Replayed (p : TransferRequest) (s : Db) (body : Json) (prior : IdempotencyRequest) :
    Prop where
  find : s.idempotencyRequests.find? p.key = some prior
  fingerprint : prior.requestFingerprint = p.requestFingerprint
  state : prior.state = .completed ∨ prior.state = .failed
  body : prior.responseBody = some body

/-- What a fresh request found, whatever its outcome. -/
structure FreshTransfer (p : TransferRequest) (ids : TransferIds) (s s' : Db) (body : Json) where
  /-- The tenant's policy. -/
  policy : TransferPolicy
  /-- The balances of the two accounts when they were checked. -/
  source : Balance
  destination : Balance
  /-- The new transfer, pending. -/
  row : Transfer
  admitted : Admitted s p policy source destination
  prunable : s.Prunable p
  limits : ∀ d, ¬(s.prune p).OverLimit p policy d
  row_eq : pendingTransfer? p policy ids.transfer = some row
  requests : s.idempotencyRequests.insert? (p.completion ids.transfer body) =
    some s'.idempotencyRequests

/-- A call that stored a rejection. -/
structure RejectedTransfer (p : TransferRequest) (ids : TransferIds) (s s' : Db) (body : Json)
    extends FreshTransfer p ids s s' body where
  uncovered : (source.available : ℤ) < p.amount ∨ (source.ledger : ℤ) < p.amount
  body_eq : body = rejectedBody p ids
  transfers : s.transfers.insert? (row.reject p.now) = some s'.transfers
  audit : s.audit.insert? (transferAudit p ids "transfer.rejected" "failed") = some s'.audit
  frame : s' = { s.prune p with
    idempotencyRequests := s'.idempotencyRequests, transfers := s'.transfers, audit := s'.audit }

/-- A call that posted a transfer. -/
structure PostedTransfer (p : TransferRequest) (ids : TransferIds) (s s' : Db) (body : Json)
    extends FreshTransfer p ids s s' body where
  /-- The balances of the two accounts after the posting. -/
  source' : Balance
  destination' : Balance
  /-- The balance events as they were stored. -/
  sourceEvent : OutboxEvent
  destinationEvent : OutboxEvent
  body_eq : body = postedBody p ids source'
  transfers : s.transfers.insert? (row.post ids.journal p.now) = some s'.transfers
  journal_unused : ¬∃ y ∈ s.transfers.rows, y.journalTransactionId = some ids.journal
  journals : s.journals.insert? (transferJournal p.tenantId p.now ids.journal ids.transfer) =
    some s'.journals
  postings : Posting.Pair s p.tenantId ids.journal ids.debitPosting ids.creditPosting
    p.debitAccountId p.creditAccountId p.amount p.currency p.now s'.postings
  move : Balance.Move s.balances s'.balances p.debitAccountId p.creditAccountId p.amount p.now
    source source' destination destination'
  velocityEvents : (s.prune p).velocityEvents.insert? (velocityEvent p ids.transfer) =
    some s'.velocityEvents
  velocityTotals : s'.velocityTotals = chargedTotals p (s.prune p).velocityTotals
  totals_fit : ∀ v ∈ s'.velocityTotals, Bigint.Fits v.total
  audit : s.audit.insert? (transferAudit p ids "transfer.posted" "succeeded") = some s'.audit
  source_enrich : enrichReservedBalanceEventV1 s' (transferBalanceEvent p.tenantId ids.sourceEvent
    p.debitAccountId ids.transfer p.currency source' p.occurredAt none) = some sourceEvent
  destination_enrich : enrichReservedBalanceEventV1 s' (transferBalanceEvent p.tenantId
    ids.destinationEvent p.creditAccountId ids.transfer p.currency destination' p.occurredAt none) =
    some destinationEvent
  outbox : ∃ t₁ t₂, s.outbox.insert? sourceEvent = some t₁ ∧ t₁.insert? destinationEvent = some t₂ ∧
    t₂.insert? (transferPostedEvent p ids) = some s'.outbox
  frame : s' = { s with
    idempotencyRequests := s'.idempotencyRequests, transfers := s'.transfers
    journals := s'.journals, postings := s'.postings, balances := s'.balances
    velocityEvents := s'.velocityEvents, velocityTotals := s'.velocityTotals
    outbox := s'.outbox, audit := s'.audit, webhookJobs := s'.webhookJobs }

/-- The reservation and its completion are one insertion of the completed request. -/
theorem completeRequest_ok {p : TransferRequest} {transfer : Uuid} {body : Json} {s s' : Db}
    {u : Unit} {t : Table IdempotencyRequest.key}
    (hres : t.insert? p.reservation = some s.idempotencyRequests)
    (h : completeRequest p transfer body s = .ok (u, s')) :
    ∃ t', t.insert? (p.completion transfer body) = some t' ∧
      { s with idempotencyRequests := t' } = s' := by
  simp only [completeRequest, Txn.get_bind_ok, Txn.raiseIf_bind_ok, Txn.set_ok] at h
  obtain ⟨-, rfl⟩ := h
  exact ⟨_, Table.update_insert? (f := p.complete transfer body) hres, rfl⟩

/-- A pending transfer has the terms of its request and compensates nothing. -/
theorem pendingTransfer?_eq_some {p : TransferRequest} {policy : TransferPolicy} {id : Uuid}
    {x : Transfer} (h : pendingTransfer? p policy id = some x) :
    x.id = id ∧ x.tenantId = p.tenantId ∧ x.actorSubjectId = p.actorSubjectId ∧
      x.debitAccountId = p.debitAccountId ∧ x.creditAccountId = p.creditAccountId ∧
      x.amount = p.amount ∧ x.currency = p.currency ∧ x.createdAt = p.now ∧
      x.compensationOfTransferId = none := by
  unfold pendingTransfer? at h
  split_ifs at h
  cases h
  exact ⟨rfl, rfl, rfl, rfl, rfl, rfl, rfl, rfl, rfl⟩

/-- A transfer that is rejected is stored with its request and its audit event. -/
theorem rejectTransfer_ok {p : TransferRequest} {ids : TransferIds} {x : Transfer} {s s' : Db}
    {body : Json} (h : rejectTransfer p ids x s = .ok (body, s')) :
    body = rejectedBody p ids ∧ ∃ audit,
      s.audit.insert? (transferAudit p ids "transfer.rejected" "failed") = some audit ∧
      s' = { s with transfers := s.transfers.replace (x.reject p.now), audit := audit } := by
  simp only [rejectTransfer, insertAudit, Txn.get_bind_ok, Txn.set_bind_ok, insertRow_bind_ok,
    Txn.pure_ok] at h
  obtain ⟨audit, ha, hbody, hs⟩ := h
  exact ⟨hbody.symm, audit, ha, hs.symm⟩

/-- A fresh request was rejected or posted. -/
theorem executeTransfer_ok {p : TransferRequest} {ids : TransferIds} {s s' : Db} {body : Json}
    {replayed : Bool} (h : executeTransfer p ids s = .ok ((body, replayed), s')) :
    replayed = false ∧ (Nonempty (RejectedTransfer p ids s s' body) ∨
      Nonempty (PostedTransfer p ids s s' body)) := by
  simp only [executeTransfer, Txn.bind_ok, insertRequest_ok, pruneVelocity_ok, checkVelocity_ok,
    Txn.orRaise_ok, insertTransfer_ok, Txn.pure_ok, Prod.mk.injEq] at h
  obtain ⟨_, _, ⟨requests, hreq, rfl⟩, ⟨policy, source, destination⟩, _, hchecks, _, _, ⟨hprune, rfl⟩,
    _, _, ⟨hlimits, rfl⟩, x, _, ⟨hx, rfl⟩, _, _, ⟨-, transfers, htr, rfl⟩, body', s₂, hout, _, s₃,
    hdone, ⟨rfl, rfl⟩, rfl⟩ := h
  obtain ⟨rfl, hpassed⟩ := admitTransfer_ok.mp hchecks
  -- The row of the request is new, so that the outcome takes its place.
  have hid := (pendingTransfer?_eq_some hx).1
  refine ⟨rfl, ?_⟩
  unfold settleTransfer at hout
  split at hout
  · -- The source does not cover the amount.
    rename_i huncovered
    obtain ⟨rfl, audit, haudit, rfl⟩ := rejectTransfer_ok hout
    obtain ⟨final, hfinal, rfl⟩ := completeRequest_ok (t := s.idempotencyRequests) hreq hdone
    exact .inl ⟨{
      policy := policy, source := source, destination := destination, row := x
      admitted := ⟨hpassed.pilot, hpassed.policy_find, hpassed.policy_currency, hpassed.minimum_le,
        hpassed.le_maximum, hpassed.source_find, hpassed.destination_find, hpassed.owns, hpassed.may⟩
      prunable := hprune
      limits := hlimits
      row_eq := hx
      requests := hfinal
      uncovered := huncovered
      body_eq := rfl
      transfers := Table.insert?_replace htr rfl
      audit := haudit
      frame := rfl }⟩
  · obtain ⟨b, b', c, c', e₁, e₂, t₁, t₂, balances, journals, postings, velocityEvents, outbox,
      audit, webhookJobs, -, hj, hpair, hmove, hunused, hv, hfits, haudit, he₁, he₂, ho₁, ho₂, ho₃,
      rfl, rfl⟩ := postTransfer_ok hout
    obtain ⟨final, hfinal, rfl⟩ := completeRequest_ok (t := s.idempotencyRequests) hreq hdone
    -- The balances that were checked are the ones that were written.
    obtain ⟨a, ha, -, -⟩ := hpassed.source_find
    obtain ⟨a', ha', -, -⟩ := hpassed.destination_find
    have hsource : s.balances.find? p.debitAccountId = some source :=
      (Db.account?_eq_some.mp ha).2.1
    have hdestination : s.balances.find? p.creditAccountId = some destination :=
      (Db.account?_eq_some.mp ha').2.1
    have hb : b = source := Option.some.inj (hmove.source_find.symm.trans hsource)
    have hne : p.debitAccountId ≠ p.creditAccountId := by
      have hdistinct := x.distinct
      rwa [(pendingTransfer?_eq_some hx).2.2.2.1, (pendingTransfer?_eq_some hx).2.2.2.2.1]
        at hdistinct
    have hc : c = destination :=
      Option.some.inj ((hmove.find?_credit_before hne).symm.trans hdestination)
    subst hb hc
    exact .inr ⟨{
      policy := policy, source := b, destination := c, row := x
      admitted := ⟨hpassed.pilot, hpassed.policy_find, hpassed.policy_currency, hpassed.minimum_le,
        hpassed.le_maximum, hpassed.source_find, hpassed.destination_find, hpassed.owns, hpassed.may⟩
      prunable := hprune
      limits := hlimits
      row_eq := hx
      requests := hfinal
      source' := b', destination' := c', sourceEvent := e₁, destinationEvent := e₂
      body_eq := rfl
      transfers := Table.insert?_replace htr rfl
      journal_unused := by
        rintro ⟨y, hy, hyj⟩
        exact hunused ⟨y, (Table.mem_insert? htr).mpr (.inr hy), hyj⟩
      journals := hj
      postings := ⟨hpair.rows, hpair.debit_currency, hpair.credit_currency⟩
      move := hmove
      velocityEvents := hv
      velocityTotals := rfl
      totals_fit := hfits
      audit := haudit
      source_enrich := he₁
      destination_enrich := he₂
      outbox := ⟨t₁, t₂, ho₁, ho₂, ho₃⟩
      frame := rfl }⟩

/-- Everything that a returning submission can have done. -/
theorem controlledSubmitTransferV1_ok {d : Digest} {sess : Session} {p : TransferRequest}
    {ids : TransferIds} {s s' : Db} {body : Json} {replayed : Bool}
    (h : controlledSubmitTransferV1 d sess p ids s = .ok ((body, replayed), s')) :
    Guarded d sess p s ∧
      ((replayed = true ∧ s' = s ∧ ∃ prior, Replayed p s body prior) ∨
        (replayed = false ∧ (Nonempty (RejectedTransfer p ids s s' body) ∨
          Nonempty (PostedTransfer p ids s s' body)))) := by
  simp only [controlledSubmitTransferV1, Txn.bind_ok, Txn.get_ok] at h
  obtain ⟨_, _, hchecks, _, _, ⟨rfl, rfl⟩, h⟩ := h
  obtain ⟨hguard, rfl⟩ := guardTransfer_ok.mp hchecks
  refine ⟨hguard, ?_⟩
  rcases hfind : s.idempotencyRequests.find? p.key with _ | prior
  · simp only [hfind] at h
    exact .inr (executeTransfer_ok h)
  · simp only [hfind, replayTransfer, Txn.bind_ok, Txn.raiseIf_ok, Txn.orRaise_ok, Txn.pure_ok,
      not_not,
      Prod.mk.injEq, Option.ite_none_right_eq_some, ne_eq] at h
    obtain ⟨_, _, ⟨hfp, rfl⟩, body', _, ⟨⟨hstate, hbody⟩, rfl⟩, ⟨rfl, rfl⟩, rfl⟩ := h
    exact .inl ⟨rfl, rfl, prior, hfind, hfp, hstate, hbody⟩

end LedgerSync
