import LedgerSync.Corrections

/-!
# Funding

Funding records value that came from outside. An event is requested, decided and posted; posting
moves the amount from the tenant's clearing account, which may go negative, to a customer account.
A posted event is compensated by a second event that moves the amount back.
-/

namespace LedgerSync

open Lib

/-! ## The clearing account -/

/-- The new clearing account of a currency; there is none when the row fails its check. -/
def clearingAccount? (tenant id : Uuid) (currency : String) : Option Account :=
  if h : IsCurrency currency then
    some {
      id := id
      tenantId := tenant
      currency := currency
      status := .active
      kind := .fundingClearing
      externalReference := "system-funding-" ++ currency.toLower
      currency_shape := h }
  else none

/-- The balance of a new clearing account. -/
def clearingBalance (id : Uuid) (now : Instant) : Balance where
  accountId := id
  available := .zero
  ledger := .zero
  version := .zero
  allowNegative := true
  updatedAt := now
  version_nonneg := Bigint.zero_nonneg
  available_policy := .inl rfl
  ledger_policy := .inl rfl

/-- The rows of a new clearing account. -/
def createClearingAccount (tenant : Uuid) (actor : String) (currency : String) (correlation : Uuid)
    (now : Instant) (created audit : Uuid) : Proc Uuid := do
  let s ← Txn.get
  let account ← Txn.orRaise (clearingAccount? tenant created currency)
    (checkViolation "accounts_currency_check")
  Txn.raiseIf (∃ x ∈ s.accounts.rows, x.tenantId = tenant ∧ x.status ≠ .closed ∧
      x.externalReference.toLower = account.externalReference.toLower)
    (uniqueViolation "accounts_tenant_open_reference_unique_idx")
  insertRow Db.accounts (fun t s => { s with accounts := t }) "accounts_pkey" account
  insertRow Db.balances (fun t s => { s with balances := t }) "account_balance_projections_pkey"
    (clearingBalance created now)
  insertRow Db.openings (fun t s => { s with openings := t }) "account_opening_balances_pkey"
    ⟨created, .zero⟩
  insertAudit {
    id := audit
    tenantId := tenant
    actorSubjectId := some actor
    eventType := "account.funding_clearing_created"
    targetType := "account"
    targetId := some created.text
    outcome := "succeeded"
    correlationId := correlation
    metadata := .obj [("function", .str "controlled_ensure_funding_account_v1"),
      ("account_kind", .str "funding_clearing")]
    occurredAt := now }
  pure created

/-- `controlled_ensure_funding_account_v1`: the clearing account of the currency, created when
the tenant has none. -/
def controlledEnsureFundingAccountV1 (sess : Session) (tenant : Uuid) (actor : String)
    (currency : String) (correlation : Uuid) (now : Instant) (created audit : Uuid) :
    Proc Uuid := do
  let s ← Txn.get
  Txn.raiseIf (¬sess.Allows tenant ∨ actor ≠ sess.actorId)
    ⟨"42501", "controlled_funding_actor", "funding account scope denied"⟩
  Txn.raiseIf (¬s.settings.HasRole tenant actor [.finance] ∨
      ¬∃ q, s.settings.fundingPolicies.find? (tenant, currency) = some q ∧
        (q.mode = .localDemoSingleOperator ∨ q.financeActivated = true))
    ⟨"42501", "controlled_funding_actor", "funding account actor or policy denied"⟩
  match s.accounts.rows.find? fun a =>
      a.tenantId = tenant ∧ a.currency = currency ∧ a.kind = .fundingClearing with
  | some a => pure a.id
  | none => createClearingAccount tenant actor currency correlation now created audit

/-! ## Requests -/

/-- The arguments of `controlled_request_funding_v1`. -/
structure FundingRequest where
  tenant : Uuid
  actor : String
  destination : Uuid
  currency : String
  amount : Bigint
  external : String
  evidence : String
  key : String
  fingerprint : Bytes
  correlation : Uuid
  requestedAt : Timestamp

/-- The identifiers that a funding request draws. -/
structure FundingRequestIds extends EvidenceIds where
  clearing : Uuid
  clearingAudit : Uuid

/-- The input check of a funding request. -/
def FundingRequest.WellFormed (d : Digest) (p : FundingRequest) : Prop :=
  0 < (p.amount : ℤ) ∧ IsCurrency p.currency ∧ 16 ≤ p.key.toList.length ∧
    p.key.toList.length ≤ 255 ∧ 1 ≤ p.external.toList.length ∧ p.external.toList.length ≤ 256 ∧
    1 ≤ p.evidence.toList.length ∧ p.evidence.toList.length ≤ 512 ∧
    p.fingerprint = controlledFingerprintPartsV1 d [p.tenant.text, p.actor, p.destination.text,
      p.currency, p.amount.text, p.external, p.evidence]

/-- Whether a request is well formed can be decided. -/
instance (d : Digest) (p : FundingRequest) : Decidable (p.WellFormed d) :=
  inferInstanceAs (Decidable (_ ∧ _ ∧ _ ∧ _ ∧ _ ∧ _ ∧ _ ∧ _ ∧ _))

/-- Two funding events may not share a key, an external reference or an original. -/
def FundingEvent.Clashes (x y : FundingEvent) : Prop :=
  (x.tenantId = y.tenantId ∧ x.requesterSubjectId = y.requesterSubjectId ∧
    x.idempotencyKey = y.idempotencyKey) ∨
  (x.tenantId = y.tenantId ∧ x.externalReference = y.externalReference) ∨
  (x.compensationOfEventId ≠ none ∧ x.compensationOfEventId = y.compensationOfEventId)

/-- Whether two events clash can be decided. -/
instance (x y : FundingEvent) : Decidable (x.Clashes y) := inferInstanceAs (Decidable (_ ∨ _ ∨ _))

/-- `INSERT INTO funding_events`. -/
def insertFundingEvent (e : FundingEvent) : Proc Unit := do
  let s ← Txn.get
  Txn.raiseIf (∃ x ∈ s.fundingEvents.rows, e.Clashes x)
    (uniqueViolation "funding_events_tenant_id_external_reference_key")
  insertRow Db.fundingEvents (fun t s => { s with fundingEvents := t }) "funding_events_pkey" e

/-- The new funding event; there is none when the row fails its checks. -/
def requestedFunding? (p : FundingRequest) (policy : FundingPolicy) (id clearing : Uuid) :
    Option FundingEvent :=
  if h : 0 < (p.amount : ℤ) ∧ p.destination ≠ clearing then
    some {
      id := id
      tenantId := p.tenant
      requesterSubjectId := p.actor
      approverSubjectId := none
      destinationAccountId := p.destination
      systemAccountId := clearing
      externalReference := p.external
      evidenceReference := p.evidence
      idempotencyKey := p.key
      requestFingerprint := p.fingerprint
      amount := p.amount
      currency := p.currency
      status := .requested
      decisionReason := none
      demoPolicy := false
      policyVersion := policy.policyVersion
      journalTransactionId := none
      compensationOfEventId := none
      compensationEventId := none
      compensationReasonCode := none
      compensationOperatorNote := none
      correlationId := p.correlation
      requestedAt := instant p.requestedAt
      approvedAt := none
      postedAt := none
      rejectedAt := none
      compensatedAt := none
      updatedAt := instant p.requestedAt
      postIdempotencyKey := none
      amount_pos := h.1
      distinct := h.2 }
  else none

/-- The evidence of a new funding event: its approval record and its audit event. -/
def recordFundingRequest (sess : Session) (e : FundingEvent) (commandType : CommandType)
    (eventType : String) (ids : EvidenceIds) : Proc Unit := do
  insertApproval {
    id := ids.approval
    tenantId := e.tenantId
    commandType := commandType
    targetId := e.id
    requesterSubjectId := e.requesterSubjectId
    approverSubjectId := none
    status := .requested
    expiresAt := e.requestedAt + day
    decisionReason := none
    correlationId := e.correlationId
    policyVersion := e.policyVersion
    createdAt := e.requestedAt
    decidedAt := none }
  controlledAppendAuditV1 sess {
    id := ids.audit
    tenantId := e.tenantId
    actorSubjectId := some e.requesterSubjectId
    eventType := eventType
    targetType := "funding_event"
    targetId := some e.id.text
    outcome := "succeeded"
    correlationId := e.correlationId
    metadata := .obj [("funding_event_id", .str e.id.text),
      ("terminology", .str "recorded external value evidence")]
    occurredAt := e.requestedAt }

/-- The answer to a request whose key is taken. -/
def replayFunding (prior : FundingEvent) (fingerprint : Bytes) : Proc (Uuid × Bool) := do
  Txn.raiseIf (prior.requestFingerprint ≠ fingerprint)
    ⟨"23505", "controlled_funding_idempotency", "funding idempotency conflict"⟩
  pure (prior.id, true)

/-- `controlled_lock_funding_policy_v1`: the policy of an active customer account. -/
def Db.fundingPolicy? (s : Db) (tenant account : Uuid) (currency : String) :
    Option FundingPolicy :=
  match s.accounts.find? account with
  | some a =>
    if a.tenantId = tenant ∧ a.currency = currency ∧ a.status = .active ∧ a.kind = .customer then
      s.settings.fundingPolicies.find? (tenant, currency)
    else none
  | none => none

/-- The body of a funding request whose key is new. -/
def createFunding (sess : Session) (p : FundingRequest) (ids : FundingRequestIds) :
    Proc (Uuid × Bool) := do
  let s ← Txn.get
  Txn.raiseIf (¬sess.Allows p.tenant ∨ ¬s.settings.HasRole p.tenant sess.actorId [.finance])
    ⟨"42501", "", "funding actor denied"⟩
  let policy ← Txn.orRaise (s.fundingPolicy? p.tenant p.destination p.currency)
    ⟨"P0002", "controlled_funding_not_found", "funding destination not found"⟩
  Txn.raiseIf (policy.mode = .productionDualControl ∧ policy.financeActivated = false)
    ⟨"42501", "controlled_funding_forbidden", "funding inactive"⟩
  Txn.raiseIf ((policy.perCommand : ℤ) < p.amount)
    ⟨"23514", "controlled_funding_limit", "funding limit exceeded"⟩
  let clearing ← controlledEnsureFundingAccountV1 sess p.tenant p.actor p.currency p.correlation
    (instant p.requestedAt) ids.clearing ids.clearingAudit
  let e ← Txn.orRaise (requestedFunding? p policy ids.created clearing)
    (checkViolation "funding_events_check")
  insertFundingEvent e
  recordFundingRequest sess e .funding "funding.requested" ids.toEvidenceIds
  pure (ids.created, false)

/-- `controlled_request_funding_v1`: the event, and whether it is a replay. -/
def controlledRequestFundingV1 (d : Digest) (sess : Session) (p : FundingRequest)
    (ids : FundingRequestIds) : Proc (Uuid × Bool) := do
  let s ← Txn.get
  Txn.raiseIf (¬s.Caller sess p.tenant p.actor [.finance])
    ⟨"42501", "controlled_funding_actor", "funding actor denied"⟩
  Txn.raiseIf (¬p.WellFormed d)
    ⟨"22023", "controlled_funding_input", "invalid funding request"⟩
  match s.fundingEvents.rows.find? fun e => e.tenantId = p.tenant ∧
      e.requesterSubjectId = p.actor ∧ e.idempotencyKey = p.key with
  | some prior => replayFunding prior p.fingerprint
  | none => createFunding sess p ids

/-- The arguments of `controlled_request_funding_compensation_v1`. -/
structure CompensationRequest where
  tenant : Uuid
  actor : String
  original : Uuid
  reason : String
  note : String
  key : String
  fingerprint : Bytes
  correlation : Uuid
  requestedAt : Timestamp

/-- The input check of a compensation request. -/
def CompensationRequest.WellFormed (d : Digest) (p : CompensationRequest) : Prop :=
  16 ≤ p.key.toList.length ∧ p.key.toList.length ≤ 255 ∧ 1 ≤ p.reason.toList.length ∧
    p.reason.toList.length ≤ 64 ∧ 1 ≤ p.note.toList.length ∧ p.note.toList.length ≤ 500 ∧
    p.fingerprint = controlledFingerprintPartsV1 d
      [p.tenant.text, p.actor, p.original.text, p.reason, p.note]

/-- Whether a request for a compensation is well formed can be decided. -/
instance (d : Digest) (p : CompensationRequest) : Decidable (p.WellFormed d) :=
  inferInstanceAs (Decidable (_ ∧ _ ∧ _ ∧ _ ∧ _ ∧ _ ∧ _))

/-- The event that will reverse an original. -/
def requestedCompensation (p : CompensationRequest) (o : FundingEvent) (id : Uuid) :
    FundingEvent where
  id := id
  tenantId := p.tenant
  requesterSubjectId := p.actor
  approverSubjectId := none
  destinationAccountId := o.destinationAccountId
  systemAccountId := o.systemAccountId
  externalReference := "compensation:" ++ p.original.text
  evidenceReference := o.evidenceReference
  idempotencyKey := p.key
  requestFingerprint := p.fingerprint
  amount := o.amount
  currency := o.currency
  status := .requested
  decisionReason := none
  demoPolicy := false
  policyVersion := o.policyVersion
  journalTransactionId := none
  compensationOfEventId := some p.original
  compensationEventId := none
  compensationReasonCode := some p.reason
  compensationOperatorNote := some p.note
  correlationId := p.correlation
  requestedAt := instant p.requestedAt
  approvedAt := none
  postedAt := none
  rejectedAt := none
  compensatedAt := none
  updatedAt := instant p.requestedAt
  postIdempotencyKey := none
  amount_pos := o.amount_pos
  distinct := o.distinct

/-- The body of a compensation request whose key is new. -/
def createCompensation (sess : Session) (p : CompensationRequest) (ids : EvidenceIds) :
    Proc (Uuid × Bool) := do
  let s ← Txn.get
  let o ← Txn.orRaise ((s.fundingEvents.find? p.original).filter fun o =>
      o.tenantId = p.tenant ∧ o.compensationOfEventId = none)
    ⟨"P0002", "controlled_funding_not_found", "funding original not found"⟩
  Txn.raiseIf (o.status ≠ .posted ∨ o.compensationEventId ≠ none)
    ⟨"23505", "controlled_funding_idempotency", "funding compensation conflict"⟩
  Txn.raiseIf (¬∃ q, s.settings.fundingPolicies.find? (p.tenant, o.currency) = some q ∧
      (q.mode = .localDemoSingleOperator ∨ q.financeActivated = true))
    ⟨"42501", "controlled_funding_forbidden", "funding inactive"⟩
  let e := requestedCompensation p o ids.created
  insertFundingEvent e
  recordFundingRequest sess e .fundingCompensation "funding.compensation.requested" ids
  pure (ids.created, false)

/-- `controlled_request_funding_compensation_v1`: the event, and whether it is a replay. -/
def controlledRequestFundingCompensationV1 (d : Digest) (sess : Session) (p : CompensationRequest)
    (ids : EvidenceIds) : Proc (Uuid × Bool) := do
  let s ← Txn.get
  Txn.raiseIf (¬s.Caller sess p.tenant p.actor [.finance])
    ⟨"42501", "controlled_funding_actor", "funding actor denied"⟩
  Txn.raiseIf (¬p.WellFormed d)
    ⟨"22023", "controlled_funding_input", "invalid funding compensation request"⟩
  match s.fundingEvents.rows.find? fun e => e.tenantId = p.tenant ∧
      e.requesterSubjectId = p.actor ∧ e.idempotencyKey = p.key with
  | some prior => replayFunding prior p.fingerprint
  | none => createCompensation sess p ids

/-! ## Decisions -/

/-- The arguments of `controlled_decide_funding_v1`. -/
structure FundingDecision where
  tenant : Uuid
  actor : String
  event : Uuid
  /-- The decision is `'approved'`, and otherwise `'rejected'`. -/
  approve : Bool
  demo : Bool
  reason : String
  correlation : Uuid
  decidedAt : Timestamp

/-- A funding event with a decision. -/
def FundingEvent.decide (e : FundingEvent) (p : FundingDecision) : FundingEvent :=
  if p.approve then
    { e with
      status := .approved
      approverSubjectId := some p.actor
      decisionReason := some p.reason
      demoPolicy := p.demo
      approvedAt := some (instant p.decidedAt)
      updatedAt := instant p.decidedAt }
  else
    { e with
      status := .rejected
      approverSubjectId := some p.actor
      decisionReason := some p.reason
      rejectedAt := some (instant p.decidedAt)
      updatedAt := instant p.decidedAt }

/-- The approval record of a decision belongs to this type of command. -/
def FundingEvent.commandType (e : FundingEvent) : CommandType :=
  if e.compensationOfEventId = none then .funding else .fundingCompensation

/-- The decision written with its evidence. -/
def recordFundingDecision (sess : Session) (p : FundingDecision) (ids : EvidenceIds)
    (e : FundingEvent) (policy : FundingPolicy) : Proc Unit := do
  let s ← Txn.get
  Txn.raiseIf (e.status ≠ .requested)
    ⟨"23505", "controlled_funding_idempotency", "funding decision conflict"⟩
  Txn.raiseIf (p.approve = true ∧ ¬∃ a ∈ s.approvals.rows, a.tenantId = p.tenant ∧
      a.targetId = p.event ∧ a.status = .requested ∧ a.requesterSubjectId = e.requesterSubjectId ∧
      a.createdAt ≤ instant p.decidedAt ∧ instant p.decidedAt < a.expiresAt)
    ⟨"42501", "controlled_funding_forbidden", "funding request approval window expired"⟩
  Txn.set { s with fundingEvents := s.fundingEvents.replace (e.decide p) }
  insertApproval {
    id := ids.approval
    tenantId := p.tenant
    commandType := e.commandType
    targetId := p.event
    requesterSubjectId := e.requesterSubjectId
    approverSubjectId := some p.actor
    status := if p.approve then .approved else .rejected
    expiresAt := if p.approve then instant p.decidedAt + day else instant p.decidedAt
    decisionReason := some p.reason
    correlationId := p.correlation
    policyVersion := if p.approve then policy.policyVersion else e.policyVersion
    createdAt := instant p.decidedAt
    decidedAt := some (instant p.decidedAt) }
  controlledAppendAuditV1 sess {
    id := ids.audit
    tenantId := p.tenant
    actorSubjectId := some p.actor
    eventType := if p.approve then "funding.approved" else "funding.rejected"
    targetType := "funding_event"
    targetId := some p.event.text
    outcome := "succeeded"
    correlationId := p.correlation
    metadata := .obj [("funding_event_id", .str p.event.text),
      ("terminology", .str "recorded external value evidence")]
    occurredAt := instant p.decidedAt }

/-- `controlled_decide_funding_v1`. -/
def controlledDecideFundingV1 (sess : Session) (p : FundingDecision) (ids : EvidenceIds) :
    Proc Unit := do
  let s ← Txn.get
  Txn.raiseIf (¬s.Caller sess p.tenant p.actor [.finance])
    ⟨"42501", "controlled_funding_actor", "funding actor denied"⟩
  Txn.raiseIf (p.reason.toList.length < 1 ∨ 500 < p.reason.toList.length)
    ⟨"22023", "controlled_funding_input", "invalid funding decision"⟩
  let e ← Txn.orRaise ((s.fundingEvents.find? p.event).filter (·.tenantId = p.tenant))
    (if p.approve then ⟨"P0002", "controlled_funding_not_found", "funding event not found"⟩
      else ⟨"23505", "controlled_funding_idempotency", "funding decision conflict"⟩)
  let policy ← Txn.orRaise (s.settings.fundingPolicies.find? (p.tenant, e.currency)) noDataFound
  Txn.raiseIf (p.approve = true ∧
      (¬(p.demo = true ↔ policy.mode = .localDemoSingleOperator) ∨
        (policy.mode = .productionDualControl ∧
          (policy.financeActivated = false ∨ e.requesterSubjectId = p.actor))))
    ⟨"42501", "controlled_funding_forbidden", "funding independent approval required"⟩
  if p.approve = true ∧ e.status = .approved then pure ()
  else recordFundingDecision sess p ids e policy

/-! ## Posting -/

/-- The arguments of `controlled_post_funding_v1`. -/
structure FundingPost where
  tenantId : Uuid
  actorSubjectId : String
  fundingEventId : Uuid
  idempotencyKey : String
  correlationId : Uuid
  occurredAt : Timestamp

/-- The identifiers that one posting draws. -/
structure FundingPostIds where
  journal : Uuid
  debitPosting : Uuid
  creditPosting : Uuid
  outbox : Uuid
  audit : Uuid

/-- The instant of the posting. -/
def FundingPost.now (p : FundingPost) : Instant := instant p.occurredAt

/-- The account that an event debits: the clearing account, or the destination of a
compensation. -/
def FundingEvent.debitAccountId (e : FundingEvent) : Uuid :=
  if e.compensationOfEventId = none then e.systemAccountId else e.destinationAccountId

/-- The account that an event credits. -/
def FundingEvent.creditAccountId (e : FundingEvent) : Uuid :=
  if e.compensationOfEventId = none then e.destinationAccountId else e.systemAccountId

/-- The change of the destination balance. -/
def FundingEvent.destinationDelta (e : FundingEvent) : ℤ :=
  if e.compensationOfEventId = none then e.amount else -e.amount

/-- The change of the clearing balance. -/
def FundingEvent.systemDelta (e : FundingEvent) : ℤ := -e.destinationDelta

/-- A posted event. -/
def FundingEvent.post (e : FundingEvent) (journal : Uuid) (key : String) (now : Instant) :
    FundingEvent :=
  { e with
    status := .posted
    journalTransactionId := some journal
    postedAt := some now
    updatedAt := now
    postIdempotencyKey := some key }

/-- An original whose compensation is posted. -/
def FundingEvent.compensate (e : FundingEvent) (compensation : Uuid) (now : Instant) :
    FundingEvent :=
  { e with
    status := .compensated
    compensationEventId := some compensation
    compensatedAt := some now
    updatedAt := now }

/-- The rolling amount of a tenant, of all requesters or of one. -/
def Db.fundingRolling (s : Db) (tenant : Uuid) (now : Instant) (requester : Option String) : ℤ :=
  s.fundingVelocity.total fun v =>
    if v.tenantId = tenant ∧ now < v.expiresAt ∧
      (∀ a, requester = some a → v.actorSubjectId = a) then v.amount else 0

/-- The limit checks of an event that is not a compensation. -/
def checkFundingLimits (p : FundingPost) (e : FundingEvent) (policy : FundingPolicy) :
    Proc Unit := do
  let s ← Txn.get
  let actorRolling := s.fundingRolling p.tenantId p.now (some e.requesterSubjectId)
  let tenantRolling := s.fundingRolling p.tenantId p.now none
  Txn.raiseIf (e.compensationOfEventId = none ∧
    (¬Bigint.Fits actorRolling ∨ ¬Bigint.Fits tenantRolling)) outOfRange
  Txn.raiseIf (e.compensationOfEventId = none ∧ ((policy.perCommand : ℤ) < e.amount ∨
      (policy.operatorRolling24h : ℤ) - e.amount < actorRolling ∨
      (policy.tenantRolling24h : ℤ) - e.amount < tenantRolling))
    ⟨"22023", "controlled_funding_limit", "controlled funding limit exceeded"⟩

/-- The clearing balance moved; only a balance that may go negative is a clearing balance. -/
def moveClearing (account : Uuid) (delta : ℤ) (now : Instant) : Proc Balance := do
  let s ← Txn.get
  let b ← Txn.orRaise ((s.balances.find? account).filter (·.allowNegative = true))
    ⟨"23514", "controlled_funding_balance", "controlled funding clearing balance conflict"⟩
  writeBalance b (b.available + delta) (b.ledger + delta) (b.version + 1) now

/-- The destination balance moved, if it stays non-negative. -/
def moveDestination (account : Uuid) (delta : ℤ) (now : Instant) : Proc Balance := do
  let s ← Txn.get
  let b ← Txn.orRaise (s.balances.find? account)
    ⟨"23514", "controlled_funding_balance", "controlled funding destination balance conflict"⟩
  Txn.raiseIf (¬Bigint.Fits (b.available + delta) ∨ ¬Bigint.Fits (b.ledger + delta)) outOfRange
  Txn.raiseIf ((b.available : ℤ) + delta < 0 ∨ (b.ledger : ℤ) + delta < 0)
    ⟨"23514", "controlled_funding_balance", "controlled funding destination balance conflict"⟩
  writeBalance b (b.available + delta) (b.ledger + delta) (b.version + 1) now

/-- The velocity event of a posted event. -/
def fundingVelocityEvent (p : FundingPost) (e : FundingEvent) : FundingVelocity where
  fundingEventId := p.fundingEventId
  tenantId := p.tenantId
  actorSubjectId := e.requesterSubjectId
  amount := e.amount
  occurredAt := p.now
  expiresAt := p.now + day

/-- What an event does to the other rows of its kind: it counts towards the rolling limits, or it
marks its original as compensated. -/
def closeFunding (p : FundingPost) (e : FundingEvent) : Proc Unit :=
  match e.compensationOfEventId with
  | none => insertRow Db.fundingVelocity (fun t s => { s with fundingVelocity := t })
      "funding_velocity_events_pkey" (fundingVelocityEvent p e)
  | some original => do
    let s ← Txn.get
    let o ← Txn.orRaise ((s.fundingEvents.find? original).filter fun o =>
        o.tenantId = p.tenantId ∧ o.status = .posted)
      ⟨"40001", "controlled_funding_state", "controlled funding compensation conflict"⟩
    Txn.set { s with fundingEvents := s.fundingEvents.replace (o.compensate p.fundingEventId p.now) }

/-- The journal of a posted event. -/
def fundingJournal (p : FundingPost) (journal : Uuid) : Journal where
  id := journal
  tenantId := p.tenantId
  transferId := none
  fundingEventId := some p.fundingEventId
  sourceType := .fundingEvent
  sourceId := p.fundingEventId
  occurredAt := p.now

/-- The balance event of the destination. -/
def fundingBalanceEvent (p : FundingPost) (ids : FundingPostIds) (e : FundingEvent) (b : Balance) :
    OutboxEvent where
  id := ids.outbox
  tenantId := p.tenantId
  transferId := none
  fundingEventId := some p.fundingEventId
  openingImportId := none
  holdId := none
  accountId := some e.destinationAccountId
  aggregateType := "account_balance"
  aggregateId := e.destinationAccountId
  eventType := balanceChangedV1
  aggregateVersion := b.version
  payload := balancePayload ids.outbox e.destinationAccountId "funding_event_id" p.fundingEventId
    e.currency b p.occurredAt (some e.destinationDelta)
  occurredAt := p.now

/-- The audit event of a posting. -/
def fundingAudit (p : FundingPost) (ids : FundingPostIds) (e : FundingEvent) (a : Approval)
    (approver : String) : AuditEvent where
  id := ids.audit
  tenantId := p.tenantId
  actorSubjectId := some p.actorSubjectId
  eventType := if e.compensationOfEventId = none then "funding.posted"
    else "funding.compensation.posted"
  targetType := "funding_event"
  targetId := some p.fundingEventId.text
  outcome := "succeeded"
  correlationId := p.correlationId
  metadata := .obj [("funding_event_id", .str p.fundingEventId.text),
    ("terminology", .str "recorded external value evidence"),
    ("function", .str "controlled_post_funding_v1"),
    ("requester_subject_id", .str a.requesterSubjectId), ("approver_subject_id", .str approver)]
  occurredAt := p.now

/-- The posting of an approved event. -/
def postFundingEvent (p : FundingPost) (ids : FundingPostIds) (e : FundingEvent)
    (policy : FundingPolicy) : Proc Bool := do
  Txn.raiseIf (e.status ≠ .approved ∨
      (policy.mode = .productionDualControl ∧ policy.financeActivated = false))
    ⟨"42501", "controlled_funding_forbidden", "controlled funding command is forbidden"⟩
  let s ← Txn.get
  let a ← Txn.orRaise (s.approvals.rows.find? fun a => a.tenantId = p.tenantId ∧
      a.targetId = p.fundingEventId ∧ a.commandType = e.commandType ∧ a.status = .approved ∧
      p.now < a.expiresAt)
    ⟨"42501", "controlled_funding_forbidden", "controlled funding approval is missing or expired"⟩
  let approver ← Txn.orRaise a.approverSubjectId
    ⟨"42501", "controlled_funding_forbidden", "controlled funding approval is missing or expired"⟩
  checkFundingLimits p e policy
  Txn.raiseIf (¬((∃ x, s.accounts.find? e.destinationAccountId = some x ∧ x.tenantId = p.tenantId) ∧
      ∃ x, s.accounts.find? e.systemAccountId = some x ∧ x.tenantId = p.tenantId))
    ⟨"42501", "controlled_funding_not_found", "controlled funding account boundary denied"⟩
  insertJournal (fundingJournal p ids.journal)
  insertPosting (transferPosting p.tenantId ids.debitPosting ids.journal e.debitAccountId .debit
    e.amount e.currency p.now)
  insertPosting (transferPosting p.tenantId ids.creditPosting ids.journal e.creditAccountId .credit
    e.amount e.currency p.now)
  let _ ← moveClearing e.systemAccountId e.systemDelta p.now
  let destination ← moveDestination e.destinationAccountId e.destinationDelta p.now
  let s ← Txn.get
  Txn.set { s with
    fundingEvents := s.fundingEvents.replace (e.post ids.journal p.idempotencyKey p.now) }
  closeFunding p e
  insertAudit (fundingAudit p ids e a approver)
  insertOutbox (fundingBalanceEvent p ids e destination)
  pure false

/-- `controlled_post_funding_v1`: whether the call is a replay. -/
def controlledPostFundingV1 (sess : Session) (p : FundingPost) (ids : FundingPostIds) :
    Proc Bool := do
  Txn.raiseIf (¬sess.Allows p.tenantId ∨ p.actorSubjectId ≠ sess.actorId)
    ⟨"42501", "controlled_funding_actor", "controlled command scope denied"⟩
  Txn.raiseIf (¬IsActor p.actorSubjectId ∨ ¬IsKey p.idempotencyKey)
    ⟨"22023", "controlled_funding_input", "controlled funding input is invalid"⟩
  let s ← Txn.get
  Txn.raiseIf (¬s.settings.HasRole p.tenantId p.actorSubjectId [.finance])
    ⟨"42501", "controlled_funding_actor", "controlled funding actor is not authorized"⟩
  let e ← Txn.orRaise ((s.fundingEvents.find? p.fundingEventId).filter (·.tenantId = p.tenantId))
    ⟨"P0002", "controlled_funding_not_found", "controlled funding event was not found"⟩
  let policy ← Txn.orRaise (s.settings.fundingPolicies.find? (p.tenantId, e.currency))
    ⟨"P0002", "controlled_funding_not_found", "controlled funding event was not found"⟩
  if e.status = .posted ∨ e.status = .compensated then do
    Txn.raiseIf (∃ k, e.postIdempotencyKey = some k ∧ k ≠ "" ∧ k ≠ p.idempotencyKey)
      ⟨"23505", "controlled_funding_idempotency", "controlled funding idempotency conflict"⟩
    pure true
  else postFundingEvent p ids e policy

/-! ## What a returning call did -/

/-- The rows of a new clearing account. -/
structure ClearingCreated (tenant created : Uuid) (currency : String) (now : Instant)
    (s s' : Db) : Prop where
  accounts : ∃ a, clearingAccount? tenant created currency = some a ∧
    s.accounts.insert? a = some s'.accounts
  balances : s.balances.insert? (clearingBalance created now) = some s'.balances
  openings : s.openings.insert? ⟨created, .zero⟩ = some s'.openings
  frame : s' = { s with
    accounts := s'.accounts, balances := s'.balances, openings := s'.openings, audit := s'.audit }

/-- A clearing account is made for its tenant and its currency. -/
theorem clearingAccount?_eq_some {tenant id : Uuid} {currency : String} {a : Account}
    (h : clearingAccount? tenant id currency = some a) :
    a.id = id ∧ a.tenantId = tenant ∧ a.currency = currency ∧ a.kind = .fundingClearing := by
  unfold clearingAccount? at h
  split_ifs at h
  cases h
  exact ⟨rfl, rfl, rfl, rfl⟩

/-- The clearing account is there, or it is created. -/
theorem controlledEnsureFundingAccountV1_ok {sess : Session} {tenant : Uuid} {actor : String}
    {currency : String} {correlation : Uuid} {now : Instant} {created audit : Uuid} {s s' : Db}
    {id : Uuid} (h : controlledEnsureFundingAccountV1 sess tenant actor currency correlation now
      created audit s = .ok (id, s')) :
    s' = s ∨ ClearingCreated tenant created currency now s s' := by
  simp only [controlledEnsureFundingAccountV1, Txn.get_bind_ok, Txn.raiseIf_bind_ok] at h
  obtain ⟨-, -, h⟩ := h
  rcases hfind : s.accounts.rows.find? (fun a =>
    a.tenantId = tenant ∧ a.currency = currency ∧ a.kind = .fundingClearing) with _ | a
  · simp only [hfind, createClearingAccount, insertAudit, Txn.get_bind_ok, Txn.orRaise_bind_ok,
      Txn.raiseIf_bind_ok, insertRow_bind_ok, Txn.pure_ok] at h
    obtain ⟨account, haccount, -, accounts, ha, balances, hb, openings, ho, audit', -, -, rfl⟩ := h
    exact .inr ⟨⟨account, haccount, ha⟩, hb, ho, rfl⟩
  · simp only [hfind, Txn.pure_ok] at h
    exact .inl h.2.symm

/-- The table grew by one record of a request. -/
def RequestEvidence (t t' : Table Approval.id) : Prop :=
  ∃ a, t.insert? a = some t' ∧ a.status = .requested

/-- The record of a request is inserted, with its audit event. -/
theorem recordFundingRequest_ok {sess : Session} {e : FundingEvent} {commandType : CommandType}
    {eventType : String} {ids : EvidenceIds} {s s' : Db} {u : Unit}
    (h : recordFundingRequest sess e commandType eventType ids s = .ok (u, s')) :
    RequestEvidence s.approvals s'.approvals ∧
      s' = { s with approvals := s'.approvals, audit := s'.audit } := by
  simp only [recordFundingRequest, insertApproval, Txn.bind_assoc, Txn.get_bind_ok,
    Txn.raiseIf_bind_ok, insertRow_bind_ok] at h
  obtain ⟨-, approvals, happrovals, h⟩ := h
  obtain ⟨audit, -, rfl⟩ := controlledAppendAuditV1_ok h
  exact ⟨⟨_, happrovals, rfl⟩, rfl⟩

/-- A funding request either repeated an earlier one or added an event, perhaps after creating the
clearing account. -/
theorem controlledRequestFundingV1_ok {d : Digest} {sess : Session} {p : FundingRequest}
    {ids : FundingRequestIds} {s s' : Db} {r : Uuid × Bool}
    (h : controlledRequestFundingV1 d sess p ids s = .ok (r, s')) :
    s' = s ∨ ∃ s₁ policy clearing e,
      (s₁ = s ∨ ClearingCreated p.tenant ids.clearing p.currency (instant p.requestedAt) s s₁) ∧
      requestedFunding? p policy ids.created clearing = some e ∧
      (¬∃ x ∈ s₁.fundingEvents.rows, e.Clashes x) ∧
      s₁.fundingEvents.insert? e = some s'.fundingEvents ∧
      RequestEvidence s₁.approvals s'.approvals ∧
      s' = { s₁ with
        fundingEvents := s'.fundingEvents, approvals := s'.approvals, audit := s'.audit } := by
  simp only [controlledRequestFundingV1, Txn.get_bind_ok, Txn.raiseIf_bind_ok] at h
  obtain ⟨-, -, h⟩ := h
  -- A key that was used answers with the first event and writes nothing.
  rcases hprior : s.fundingEvents.rows.find? (fun e => e.tenantId = p.tenant ∧
    e.requesterSubjectId = p.actor ∧ e.idempotencyKey = p.key) with _ | prior
  · simp only [hprior, createFunding, Txn.get_bind_ok, Txn.raiseIf_bind_ok,
      Txn.orRaise_bind_ok] at h
    obtain ⟨-, policy, -, -, -, h⟩ := h
    obtain ⟨clearing, s₁, hensure, h⟩ := Txn.bind_ok.mp h
    simp only [insertFundingEvent, Txn.bind_assoc, Txn.get_bind_ok, Txn.raiseIf_bind_ok,
      Txn.orRaise_bind_ok, insertRow_bind_ok] at h
    obtain ⟨e, he, hclash, fundingEvents, hins, h⟩ := h
    obtain ⟨_, s₂, hrecord, h⟩ := Txn.bind_ok.mp h
    obtain ⟨-, rfl⟩ := Txn.pure_ok.mp h
    obtain ⟨hevidence, hframe⟩ := recordFundingRequest_ok hrecord
    -- The clearing account was there or is created now.
    refine .inr ⟨s₁, policy, clearing, e, controlledEnsureFundingAccountV1_ok hensure, he, hclash,
      ?_, hevidence, ?_⟩
    · rw [hframe]
      exact hins
    · rw [hframe]
  · simp only [hprior, replayFunding, Txn.raiseIf_bind_ok, Txn.pure_ok] at h
    exact .inl h.2.2.symm

/-- A compensation request either repeated an earlier one or added an event against a posted
original. -/
theorem controlledRequestFundingCompensationV1_ok {d : Digest} {sess : Session}
    {p : CompensationRequest} {ids : EvidenceIds} {s s' : Db} {r : Uuid × Bool}
    (h : controlledRequestFundingCompensationV1 d sess p ids s = .ok (r, s')) :
    s' = s ∨ ∃ o, s.fundingEvents.find? p.original = some o ∧ o.tenantId = p.tenant ∧
      o.compensationOfEventId = none ∧ o.status = .posted ∧
      (¬∃ x ∈ s.fundingEvents.rows, (requestedCompensation p o ids.created).Clashes x) ∧
      s.fundingEvents.insert? (requestedCompensation p o ids.created) = some s'.fundingEvents ∧
      RequestEvidence s.approvals s'.approvals ∧
      s' = { s with
        fundingEvents := s'.fundingEvents, approvals := s'.approvals, audit := s'.audit } := by
  simp only [controlledRequestFundingCompensationV1, Txn.get_bind_ok, Txn.raiseIf_bind_ok] at h
  obtain ⟨-, -, h⟩ := h
  rcases hprior : s.fundingEvents.rows.find? (fun e => e.tenantId = p.tenant ∧
    e.requesterSubjectId = p.actor ∧ e.idempotencyKey = p.key) with _ | prior
  · simp only [hprior, createCompensation, insertFundingEvent, Txn.bind_assoc, Txn.get_bind_ok,
      Txn.raiseIf_bind_ok, Txn.orRaise_bind_ok, insertRow_bind_ok, Option.filter_eq_some_iff,
      decide_eq_true_eq, not_or, not_not, ne_eq] at h
    obtain ⟨o, ⟨hfind, htenant, horiginal⟩, ⟨hposted, -⟩, -, hclash, fundingEvents, hins, h⟩ := h
    obtain ⟨_, s₂, hrecord, h⟩ := Txn.bind_ok.mp h
    obtain ⟨-, rfl⟩ := Txn.pure_ok.mp h
    obtain ⟨hevidence, hframe⟩ := recordFundingRequest_ok hrecord
    refine .inr ⟨o, hfind, htenant, horiginal, hposted, hclash, ?_, hevidence, ?_⟩
    · rw [hframe]
      exact hins
    · rw [hframe]
  · simp only [hprior, replayFunding, Txn.raiseIf_bind_ok, Txn.pure_ok] at h
    exact .inl h.2.2.symm

/-- The table grew by the record of a decision on a funding event. -/
def DecisionEvidence (p : FundingDecision) (e : FundingEvent) (t t' : Table Approval.id) : Prop :=
  ∃ a, t.insert? a = some t' ∧ a.tenantId = p.tenant ∧ a.targetId = p.event ∧
    a.commandType = e.commandType ∧ a.requesterSubjectId = e.requesterSubjectId ∧
    a.approverSubjectId = some p.actor ∧ a.status = if p.approve then .approved else .rejected

/-- A decision either found the event approved or decided an event that was requested. -/
theorem controlledDecideFundingV1_ok {sess : Session} {p : FundingDecision} {ids : EvidenceIds}
    {s s' : Db} {u : Unit} (h : controlledDecideFundingV1 sess p ids s = .ok (u, s')) :
    s' = s ∨ ∃ e policy, s.fundingEvents.find? p.event = some e ∧ e.tenantId = p.tenant ∧
      e.status = .requested ∧
      s.settings.fundingPolicies.find? (p.tenant, e.currency) = some policy ∧
      (p.approve = true → policy.mode = .productionDualControl → e.requesterSubjectId ≠ p.actor) ∧
      s'.fundingEvents = s.fundingEvents.replace (e.decide p) ∧
      DecisionEvidence p e s.approvals s'.approvals ∧
      s' = { s with
        fundingEvents := s'.fundingEvents, approvals := s'.approvals, audit := s'.audit } := by
  simp only [controlledDecideFundingV1, Txn.get_bind_ok, Txn.raiseIf_bind_ok, Txn.orRaise_bind_ok,
    Option.filter_eq_some_iff, decide_eq_true_eq] at h
  obtain ⟨-, -, e, ⟨hfind, htenant⟩, policy, hpolicy, hindependent, h⟩ := h
  split_ifs at h
  · exact .inl (Txn.pure_ok.mp h).2.symm
  · simp only [recordFundingDecision, insertApproval, Txn.bind_assoc, Txn.get_bind_ok,
      Txn.set_bind_ok, Txn.raiseIf_bind_ok, insertRow_bind_ok, not_not, ne_eq] at h
    obtain ⟨hrequested, -, -, approvals, happrovals, h⟩ := h
    obtain ⟨audit, -, rfl⟩ := controlledAppendAuditV1_ok h
    refine .inr ⟨e, policy, hfind, htenant, hrequested, hpolicy, fun happrove hmode hsame => ?_, rfl,
      ⟨_, happrovals, rfl, rfl, rfl, rfl, rfl, rfl⟩, rfl⟩
    exact hindependent ⟨happrove, .inr ⟨hmode, .inr hsame⟩⟩

/-- What a posted event did to the other rows of its kind, with the events `events` after it was
marked as posted. -/
structure FundingClosed (p : FundingPost) (e : FundingEvent) (events : Table FundingEvent.id)
    (s s' : Db) : Prop where
  /-- An event that is not a compensation is counted. -/
  counted : e.compensationOfEventId = none →
    s.fundingVelocity.insert? (fundingVelocityEvent p e) = some s'.fundingVelocity ∧
      s'.fundingEvents = events
  /-- A compensation marks its original, which was posted. -/
  marked : ∀ original, e.compensationOfEventId = some original → ∃ o,
    events.find? original = some o ∧ o.tenantId = p.tenantId ∧ o.status = .posted ∧
      s'.fundingVelocity = s.fundingVelocity ∧
      s'.fundingEvents = events.replace (o.compensate p.fundingEventId p.now)

/-- A call that posted a funding event. -/
structure PostedFunding (p : FundingPost) (ids : FundingPostIds) (s s' : Db) where
  event : FundingEvent
  policy : FundingPolicy
  /-- The balances before and after, the clearing account first. -/
  clearing : Balance
  clearing' : Balance
  destination : Balance
  destination' : Balance
  /-- The balance event as it was stored. -/
  outboxEvent : OutboxEvent
  event_find : s.fundingEvents.find? p.fundingEventId = some event
  event_tenant : event.tenantId = p.tenantId
  event_status : event.status = .approved
  /-- The approval that the posting rests on. -/
  approval : Approval
  approval_mem : approval ∈ s.approvals
  approval_tenant : approval.tenantId = p.tenantId
  approval_target : approval.targetId = p.fundingEventId
  approval_type : approval.commandType = event.commandType
  approval_status : approval.status = .approved
  approval_open : p.now < approval.expiresAt
  approval_approver : approval.approverSubjectId ≠ none
  policy_find : s.settings.fundingPolicies.find? (p.tenantId, event.currency) = some policy
  limits : event.compensationOfEventId = none →
    s.fundingRolling p.tenantId p.now (some event.requesterSubjectId) ≤
        policy.operatorRolling24h - event.amount ∧
      s.fundingRolling p.tenantId p.now none ≤ policy.tenantRolling24h - event.amount
  destination_tenant : ∃ x, s.accounts.find? event.destinationAccountId = some x ∧
    x.tenantId = p.tenantId
  system_tenant : ∃ x, s.accounts.find? event.systemAccountId = some x ∧ x.tenantId = p.tenantId
  journal_fresh : ¬∃ x ∈ s.journals.rows, (fundingJournal p ids.journal).SameSource x
  journals : s.journals.insert? (fundingJournal p ids.journal) = some s'.journals
  postings : Posting.Pair s p.tenantId ids.journal ids.debitPosting ids.creditPosting
    event.debitAccountId event.creditAccountId event.amount event.currency p.now s'.postings
  clearing_negative : clearing.allowNegative = true
  move : Balance.Move s.balances s'.balances event.systemAccountId event.destinationAccountId
    event.destinationDelta p.now clearing clearing' destination destination'
  closed : FundingClosed p event
    (s.fundingEvents.replace (event.post ids.journal p.idempotencyKey p.now)) s s'
  enrich : enrichReservedBalanceEventV1 s' (fundingBalanceEvent p ids event destination') =
    some outboxEvent
  outbox : s.outbox.insert? outboxEvent = some s'.outbox
  frame : s' = { s with
    journals := s'.journals, postings := s'.postings, balances := s'.balances
    fundingEvents := s'.fundingEvents, fundingVelocity := s'.fundingVelocity
    outbox := s'.outbox, audit := s'.audit }

/-- The check of the limits leaves room for the amount, compensations apart. -/
theorem checkFundingLimits_ok {p : FundingPost} {e : FundingEvent} {policy : FundingPolicy}
    {s s' : Db} {u : Unit} (h : checkFundingLimits p e policy s = .ok (u, s')) :
    s = s' ∧ (e.compensationOfEventId = none →
      s.fundingRolling p.tenantId p.now (some e.requesterSubjectId) ≤
          policy.operatorRolling24h - e.amount ∧
        s.fundingRolling p.tenantId p.now none ≤ policy.tenantRolling24h - e.amount) := by
  simp only [checkFundingLimits, Txn.get_bind_ok, Txn.raiseIf_bind_ok, Txn.raiseIf_ok, not_and,
    not_or, not_lt] at h
  obtain ⟨-, hlimits, hs⟩ := h
  exact ⟨hs, fun hnone => (hlimits hnone).2⟩

/-- The clearing account moves by the amount, below zero perhaps. -/
theorem moveClearing_ok {account : Uuid} {delta : ℤ} {now : Instant} {b' : Balance} {s s' : Db}
    (h : moveClearing account delta now s = .ok (b', s')) :
    ∃ b, s.balances.find? account = some b ∧ b.allowNegative = true ∧
      b.Written b' (b.available + delta) (b.ledger + delta) (b.version + 1) now ∧
      { s with balances := s.balances.replace b' } = s' := by
  simp only [moveClearing, Txn.get_bind_ok, Txn.orRaise_bind_ok, Option.filter_eq_some_iff,
    decide_eq_true_eq] at h
  obtain ⟨b, ⟨hb, hneg⟩, h⟩ := h
  exact ⟨b, hb, hneg, writeBalance_ok h⟩

/-- The destination moves by the amount. -/
theorem moveDestination_ok {account : Uuid} {delta : ℤ} {now : Instant} {b' : Balance} {s s' : Db}
    (h : moveDestination account delta now s = .ok (b', s')) :
    ∃ b, s.balances.find? account = some b ∧
      b.Written b' (b.available + delta) (b.ledger + delta) (b.version + 1) now ∧
      { s with balances := s.balances.replace b' } = s' := by
  simp only [moveDestination, Txn.get_bind_ok, Txn.orRaise_bind_ok, Txn.raiseIf_bind_ok] at h
  obtain ⟨b, hb, -, -, h⟩ := h
  exact ⟨b, hb, writeBalance_ok h⟩

/-- Closing an event posts it, and marks the original when it is a compensation. -/
theorem closeFunding_ok {p : FundingPost} {e : FundingEvent} {s s' : Db} {u : Unit}
    (h : closeFunding p e s = .ok (u, s')) :
    FundingClosed p e s.fundingEvents s s' ∧
      s' = { s with fundingEvents := s'.fundingEvents, fundingVelocity := s'.fundingVelocity } := by
  rcases hof : e.compensationOfEventId with _ | original
  · simp only [closeFunding, hof, insertRow_ok] at h
    obtain ⟨t, ht, rfl⟩ := h
    exact ⟨⟨fun _ => ⟨ht, rfl⟩, fun o ho => by simp [hof] at ho⟩, rfl⟩
  · simp only [closeFunding, hof, Txn.get_bind_ok, Txn.orRaise_bind_ok, Txn.set_ok,
      Option.filter_eq_some_iff, decide_eq_true_eq] at h
    obtain ⟨o, ⟨hfind, htenant, hposted⟩, rfl⟩ := h
    refine ⟨⟨fun hnone => by simp [hof] at hnone, fun x hx => ?_⟩, rfl⟩
    rw [hof, Option.some.injEq] at hx
    subst hx
    exact ⟨o, hfind, htenant, hposted, rfl, rfl⟩

/-- An event that is posted moves the clearing account and the destination, with a journal, postings
and events. -/
theorem postFundingEvent_ok {p : FundingPost} {ids : FundingPostIds} {e : FundingEvent}
    {policy : FundingPolicy} {s s' : Db} {r : Bool}
    (hfind : s.fundingEvents.find? p.fundingEventId = some e) (htenant : e.tenantId = p.tenantId)
    (hpolicy : s.settings.fundingPolicies.find? (p.tenantId, e.currency) = some policy)
    (h : postFundingEvent p ids e policy s = .ok (r, s')) :
    Nonempty (PostedFunding p ids s s') := by
  simp only [postFundingEvent, Txn.get_bind_ok, Txn.raiseIf_bind_ok, Txn.orRaise_bind_ok, not_or,
    not_not, ne_eq] at h
  obtain ⟨⟨hstatus, -⟩, a, ha, approver, happrover, h⟩ := h
  -- The approval was found by these conditions.
  have hfound : a.tenantId = p.tenantId ∧ a.targetId = p.fundingEventId ∧
      a.commandType = e.commandType ∧ a.status = .approved ∧ p.now < a.expiresAt := by
    simpa using List.find?_some ha
  obtain ⟨_, _, hchecks, h⟩ := Txn.bind_ok.mp h
  obtain ⟨rfl, hlimits⟩ := checkFundingLimits_ok hchecks
  simp only [insertJournal, insertPosting, Txn.bind_assoc, Txn.get_bind_ok, Txn.raiseIf_bind_ok,
    insertRow_bind_ok, not_not] at h
  -- The journal and both postings are new.
  obtain ⟨⟨hdt, hst⟩, hfresh, journals, hj, hda, t₁, hp₁, hca, postings, hp₂, h⟩ := h
  -- The two balances move by what the event says.
  obtain ⟨clearing', _, hclearing, h⟩ := Txn.bind_ok.mp h
  obtain ⟨destination', _, hdestination, h⟩ := Txn.bind_ok.mp h
  obtain ⟨clearing, hcfind, hneg, hcw, rfl⟩ := moveClearing_ok hclearing
  obtain ⟨destination, hdfind, hdw, rfl⟩ := moveDestination_ok hdestination
  simp only [Txn.get_bind_ok, Txn.set_bind_ok] at h
  obtain ⟨_, s₂, hclose, h⟩ := Txn.bind_ok.mp h
  obtain ⟨hclosed, hframe⟩ := closeFunding_ok hclose
  simp only [insertAudit, insertOutbox, Txn.bind_assoc, Txn.get_bind_ok, Txn.orRaise_bind_ok,
    Txn.raiseIf_bind_ok, insertRow_bind_ok, Txn.pure_ok] at h
  obtain ⟨audit, -, e', he', -, outbox, ho, -, rfl⟩ := h
  rw [hframe] at he' ho
  -- Clearing falls by what the destination takes.
  have hmoved : ∀ x : ℤ, x + e.systemDelta = x - e.destinationDelta := fun x => by
    rw [FundingEvent.systemDelta, sub_eq_add_neg]
  rw [hmoved, hmoved] at hcw
  exact ⟨{
    event := e, policy := policy, clearing := clearing, clearing' := clearing'
    destination := destination, destination' := destination', outboxEvent := e'
    event_find := hfind
    event_tenant := htenant
    event_status := hstatus
    approval := a
    approval_mem := List.mem_of_find?_eq_some ha
    approval_tenant := hfound.1
    approval_target := hfound.2.1
    approval_type := hfound.2.2.1
    approval_status := hfound.2.2.2.1
    approval_open := hfound.2.2.2.2
    approval_approver := by simp [happrover]
    policy_find := hpolicy
    limits := hlimits
    destination_tenant := hdt
    system_tenant := hst
    journal_fresh := hfresh
    journals := by rw [hframe]; exact hj
    postings := by rw [hframe]; exact ⟨⟨t₁, hp₁, hp₂⟩, hda, hca⟩
    clearing_negative := hneg
    move := by rw [hframe]; exact ⟨hcfind, hcw, hdfind, hdw, rfl⟩
    closed := ⟨hclosed.counted, hclosed.marked⟩
    enrich := by rw [hframe]; exact he'
    outbox := ho
    frame := by rw [hframe] }⟩

/-- Everything that a returning posting can have done. -/
theorem controlledPostFundingV1_ok {sess : Session} {p : FundingPost} {ids : FundingPostIds}
    {s s' : Db} {r : Bool} (h : controlledPostFundingV1 sess p ids s = .ok (r, s')) :
    s' = s ∨ Nonempty (PostedFunding p ids s s') := by
  simp only [controlledPostFundingV1, Txn.get_bind_ok, Txn.raiseIf_bind_ok, Txn.orRaise_bind_ok,
    Option.filter_eq_some_iff, decide_eq_true_eq] at h
  obtain ⟨-, -, -, e, ⟨hfind, htenant⟩, policy, hpolicy, h⟩ := h
  split_ifs at h
  · rw [Txn.raiseIf_bind_ok, Txn.pure_ok] at h
    exact .inl h.2.2.symm
  · exact .inr (postFundingEvent_ok hfind htenant hpolicy h)

end LedgerSync
