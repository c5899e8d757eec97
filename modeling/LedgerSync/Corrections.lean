import LedgerSync.Transfers

/-!
# Transfer corrections

A posted transfer is corrected by a second transfer that reverses it. A correction is requested,
decided and posted by three commands; the original transfer and its journal are never changed.
-/

namespace LedgerSync

open Lib

/-- `controlled_fingerprint_parts_v1`: the digest of the parts with zero bytes between them. -/
def controlledFingerprintPartsV1 (d : Digest) (parts : List String) : Bytes :=
  d.sha256 ("\x00".intercalate parts)

/-- The caller is bound to the tenant and has one of the roles. -/
def Db.Caller (s : Db) (sess : Session) (tenant : Uuid) (actor : String) (roles : List Role) :
    Prop :=
  sess.Allows tenant ∧ actor = sess.actorId ∧ s.settings.HasRole tenant actor roles

/-- Whether a session is of a caller can be decided. -/
instance (s : Db) (sess : Session) (t : Uuid) (a : String) (rs : List Role) :
    Decidable (s.Caller sess t a rs) := inferInstanceAs (Decidable (_ ∧ _ ∧ _))

/-- A step-up authentication that is recent enough for a command at `now`. -/
def RecentStepUp (stepUp : Option Timestamp) (now : Instant) : Prop :=
  ∃ t, stepUp = some t ∧ instant t ≤ now + minute ∧ now - instant t ≤ 10 * minute

/-- Whether a step-up is recent can be decided. -/
instance (stepUp : Option Timestamp) (now : Instant) : Decidable (RecentStepUp stepUp now) :=
  inferInstanceAs (Decidable (∃ t, stepUp = some t ∧ _))

/-! ## Requests -/

/-- The arguments of `controlled_request_correction_v1`. -/
structure CorrectionRequest where
  tenant : Uuid
  actor : String
  original : Uuid
  reason : String
  note : String
  key : String
  fingerprint : Bytes
  correlation : Uuid
  requestedAt : Timestamp
  stepUp : Option Timestamp

/-- The identifiers that a request or a decision draws. -/
structure EvidenceIds where
  created : Uuid
  approval : Uuid
  audit : Uuid

/-- The reasons that a correction may give. -/
def correctionReasons : List String :=
  ["duplicate", "wrong_destination", "wrong_amount", "customer_request", "operational_error",
    "compliance_reversal"]

/-- The input check of a correction request. -/
def CorrectionRequest.WellFormed (d : Digest) (p : CorrectionRequest) : Prop :=
  p.reason ∈ correctionReasons ∧ 1 ≤ p.note.utf8ByteSize ∧ p.note.utf8ByteSize ≤ 500 ∧
    16 ≤ p.key.toList.length ∧ p.key.toList.length ≤ 255 ∧
    p.fingerprint = controlledFingerprintPartsV1 d
      [p.tenant.text, p.actor, p.original.text, p.reason, p.note]

/-- Whether a request is well formed can be decided. -/
instance (d : Digest) (p : CorrectionRequest) : Decidable (p.WellFormed d) :=
  inferInstanceAs (Decidable (_ ∧ _ ∧ _ ∧ _ ∧ _ ∧ _))

/-- The new correction. -/
def requestedCorrection (p : CorrectionRequest) (policy : TransferPolicy) (id : Uuid) :
    Correction where
  id := id
  tenantId := p.tenant
  originalTransferId := p.original
  compensationTransferId := none
  requesterSubjectId := p.actor
  approverSubjectId := none
  reasonCode := p.reason
  operatorNote := p.note
  idempotencyKey := p.key
  requestFingerprint := p.fingerprint
  status := .requested
  decisionReason := none
  policyVersion := policy.policyVersion
  controlMode := policy.controlMode
  stepUpRequired := policy.requiresStepUp
  approvalExpiresAt := instant p.requestedAt + policy.approvalTtlMinutes * minute
  correlationId := p.correlation
  requestedAt := instant p.requestedAt
  decidedAt := none
  cancelledAt := none
  postedAt := none
  updatedAt := instant p.requestedAt
  postIdempotencyKey := none

/-- `INSERT INTO transfer_corrections`. -/
def insertCorrection (c : Correction) : Proc Unit := do
  let s ← Txn.get
  Txn.raiseIf (∃ x ∈ s.corrections.rows, x.tenantId = c.tenantId ∧
      ((x.requesterSubjectId = c.requesterSubjectId ∧ x.idempotencyKey = c.idempotencyKey) ∨
        x.originalTransferId = c.originalTransferId))
    (uniqueViolation "transfer_corrections_tenant_id_original_transfer_id_key")
  insertRow Db.corrections (fun t s => { s with corrections := t }) "transfer_corrections_pkey" c

/-- The body of a request whose key is new. -/
def createCorrection (sess : Session) (p : CorrectionRequest) (ids : EvidenceIds) :
    Proc (Uuid × Bool) := do
  let s ← Txn.get
  Txn.raiseIf (¬sess.Allows p.tenant ∨
      ¬s.settings.HasRole p.tenant sess.actorId [.operator, .finance])
    ⟨"42501", "", "correction actor denied"⟩
  let original ← Txn.orRaise ((s.transfers.find? p.original).filter (·.tenantId = p.tenant))
    ⟨"P0002", "controlled_correction_not_found", "correction original not found"⟩
  let policy ← Txn.orRaise (s.settings.transferPolicies.find? p.tenant)
    ⟨"P0002", "controlled_correction_not_found", "correction original not found"⟩
  Txn.raiseIf (original.status ≠ .posted ∨ original.compensationOfTransferId ≠ none)
    ⟨"55000", "controlled_correction_conflict", "original cannot be corrected"⟩
  let recent := RecentStepUp p.stepUp (instant p.requestedAt)
  Txn.raiseIf (policy.controlMode = .productionDualControl ∧ policy.requiresStepUp = true ∧ ¬recent)
    ⟨"42501", "controlled_correction_step_up", "recent step-up required"⟩
  let c := requestedCorrection p policy ids.created
  insertCorrection c
  insertApproval {
    id := ids.approval
    tenantId := p.tenant
    commandType := .transferCompensation
    targetId := ids.created
    requesterSubjectId := p.actor
    approverSubjectId := none
    status := .requested
    expiresAt := c.approvalExpiresAt
    decisionReason := none
    correlationId := p.correlation
    policyVersion := policy.policyVersion
    createdAt := instant p.requestedAt
    decidedAt := none }
  controlledAppendAuditV1 sess {
    id := ids.audit
    tenantId := p.tenant
    actorSubjectId := some p.actor
    eventType := "transfer_correction.requested"
    targetType := "transfer_correction"
    targetId := some ids.created.text
    outcome := "succeeded"
    correlationId := p.correlation
    metadata := .obj [("reason_code", .str p.reason),
      ("step_up_verified", .bool (policy.requiresStepUp = false ∨ recent))]
    occurredAt := instant p.requestedAt }
  pure (ids.created, false)

/-- `controlled_request_correction_v1`: the correction, and whether it is a replay. -/
def controlledRequestCorrectionV1 (d : Digest) (sess : Session) (p : CorrectionRequest)
    (ids : EvidenceIds) : Proc (Uuid × Bool) := do
  let s ← Txn.get
  Txn.raiseIf (¬s.Caller sess p.tenant p.actor [.operator, .finance])
    ⟨"42501", "controlled_correction_actor", "correction actor denied"⟩
  Txn.raiseIf (¬p.WellFormed d)
    ⟨"22023", "controlled_correction_input", "invalid correction request"⟩
  match s.corrections.rows.find? fun c => c.tenantId = p.tenant ∧ c.requesterSubjectId = p.actor ∧
      c.idempotencyKey = p.key with
  | some prior => do
    Txn.raiseIf (prior.requestFingerprint ≠ p.fingerprint)
      ⟨"23505", "controlled_correction_idempotency", "correction idempotency conflict"⟩
    pure (prior.id, true)
  | none => createCorrection sess p ids

/-! ## Decisions -/

/-- The decisions that a caller may ask for. -/
inductive CorrectionDecision where
  | approved
  | rejected
  | cancelled
deriving DecidableEq

/-- The status that a decision leads to. -/
def CorrectionDecision.status : CorrectionDecision → CorrectionStatus
  | approved => .approved
  | rejected => .rejected
  | cancelled => .cancelled

/-- The text of a correction status. -/
def CorrectionStatus.text : CorrectionStatus → String
  | requested => "requested"
  | approved => "approved"
  | rejected => "rejected"
  | cancelled => "cancelled"
  | expired => "expired"
  | posted => "posted"

/-- The arguments of `controlled_decide_correction_v1`. -/
structure CorrectionDecisionRequest where
  tenant : Uuid
  actor : String
  correction : Uuid
  decision : CorrectionDecision
  reason : String
  correlation : Uuid
  decidedAt : Timestamp
  stepUp : Option Timestamp

/-- What a decision writes: the status, the reason, the approver, the audit outcome, the expiry of
the approval record, and the audit metadata. -/
structure CorrectionVerdict where
  status : CorrectionStatus
  reason : String
  approver : Option String
  outcome : String
  expires : Instant
  metadata : Json

/-- The verdict of a decision on a correction; there is none when the correction was approved
before and is approved again. -/
def correctionVerdict (p : CorrectionDecisionRequest) (c : Correction) :
    Proc (Option CorrectionVerdict) :=
  if p.decision = .cancelled then do
    Txn.raiseIf (c.requesterSubjectId ≠ p.actor)
      ⟨"42501", "controlled_correction_forbidden", "only requester can cancel"⟩
    Txn.raiseIf (c.status ≠ .requested ∧ c.status ≠ .approved)
      ⟨"55000", "controlled_correction_conflict", "correction decision conflict"⟩
    pure (some ⟨.cancelled, p.reason, none, "succeeded", c.approvalExpiresAt, .obj []⟩)
  else if p.decision = .approved ∧ c.status = .approved then pure none
  else do
    Txn.raiseIf (c.status ≠ .requested)
      ⟨"55000", "controlled_correction_conflict", "correction decision conflict"⟩
    if c.approvalExpiresAt ≤ instant p.decidedAt then
      pure (some ⟨.expired, "approval_window_expired", none, "failed", instant p.decidedAt, .obj []⟩)
    else do
      Txn.raiseIf (c.controlMode = .productionDualControl ∧ c.requesterSubjectId = p.actor)
        ⟨"42501", "controlled_correction_forbidden", "independent correction approver required"⟩
      let recent := RecentStepUp p.stepUp (instant p.decidedAt)
      Txn.raiseIf (c.controlMode = .productionDualControl ∧ c.stepUpRequired = true ∧ ¬recent)
        ⟨"42501", "controlled_correction_step_up", "recent step-up required"⟩
      pure (some ⟨p.decision.status, p.reason, some p.actor, "succeeded", c.approvalExpiresAt,
        .obj [("step_up_verified", .bool (c.stepUpRequired = false ∨ recent))]⟩)

/-- A correction with a verdict. -/
def Correction.decide (c : Correction) (v : CorrectionVerdict) (now : Instant) : Correction :=
  if v.status = .cancelled ∨ v.status = .expired then
    { c with
      status := v.status
      decisionReason := some v.reason
      cancelledAt := some now
      updatedAt := now }
  else
    { c with
      status := v.status
      approverSubjectId := v.approver
      decisionReason := some v.reason
      decidedAt := some now
      updatedAt := now }

/-- A verdict written with its evidence. -/
def recordVerdict (sess : Session) (p : CorrectionDecisionRequest) (ids : EvidenceIds)
    (c : Correction) (v : CorrectionVerdict) : Proc Unit := do
  let s ← Txn.get
  Txn.set { s with corrections := s.corrections.replace (c.decide v (instant p.decidedAt)) }
  insertApproval {
    id := ids.approval
    tenantId := p.tenant
    commandType := .transferCompensation
    targetId := p.correction
    requesterSubjectId := c.requesterSubjectId
    approverSubjectId := v.approver
    status := v.status
    expiresAt := v.expires
    decisionReason := some v.reason
    correlationId := p.correlation
    policyVersion := c.policyVersion
    createdAt := instant p.decidedAt
    decidedAt := some (instant p.decidedAt) }
  controlledAppendAuditV1 sess {
    id := ids.audit
    tenantId := p.tenant
    actorSubjectId := some p.actor
    eventType := "transfer_correction." ++ v.status.text
    targetType := "transfer_correction"
    targetId := some p.correction.text
    outcome := v.outcome
    correlationId := p.correlation
    metadata := v.metadata
    occurredAt := instant p.decidedAt }

/-- `controlled_decide_correction_v1`. -/
def controlledDecideCorrectionV1 (sess : Session) (p : CorrectionDecisionRequest)
    (ids : EvidenceIds) : Proc Unit := do
  let s ← Txn.get
  Txn.raiseIf (¬sess.Allows p.tenant ∨ p.actor ≠ sess.actorId)
    ⟨"42501", "controlled_correction_actor", "correction scope denied"⟩
  Txn.raiseIf (p.reason.utf8ByteSize < 1 ∨ 500 < p.reason.utf8ByteSize)
    ⟨"22023", "controlled_correction_input", "invalid correction decision"⟩
  Txn.raiseIf (p.decision ≠ .cancelled ∧ ¬s.settings.HasRole p.tenant p.actor [.finance])
    ⟨"42501", "controlled_correction_actor", "correction finance actor required"⟩
  let c ← Txn.orRaise ((s.corrections.find? p.correction).filter (·.tenantId = p.tenant))
    ⟨"P0002", "controlled_correction_not_found", "correction not found"⟩
  let v ← correctionVerdict p c
  match v with
  | none => pure ()
  | some v => recordVerdict sess p ids c v

/-! ## Posting -/

/-- The arguments of `controlled_post_transfer_correction_v1`. -/
structure CorrectionPost where
  tenantId : Uuid
  actorSubjectId : String
  correctionId : Uuid
  idempotencyKey : String
  correlationId : Uuid
  occurredAt : Timestamp
  stepUp : Option Timestamp

/-- The identifiers that one posting draws. -/
structure CorrectionPostIds where
  compensation : Uuid
  journal : Uuid
  debitPosting : Uuid
  creditPosting : Uuid
  sourceEvent : Uuid
  destinationEvent : Uuid
  audit : Uuid
  approval : Uuid

namespace CorrectionPost

/-- The instant of the posting. -/
def now (p : CorrectionPost) : Instant := instant p.occurredAt

end CorrectionPost

/-- The transfer that reverses an original. -/
def compensationTransfer (p : CorrectionPost) (ids : CorrectionPostIds) (c : Correction)
    (o : Transfer) : Transfer where
  id := ids.compensation
  tenantId := p.tenantId
  actorSubjectId := p.actorSubjectId
  debitAccountId := o.creditAccountId
  creditAccountId := o.debitAccountId
  amount := o.amount
  currency := o.currency
  status := .posted
  rejectionCode := none
  journalTransactionId := some ids.journal
  createdAt := p.now
  completedAt := some p.now
  policyVersion := c.policyVersion
  compensationOfTransferId := some o.id
  amount_pos := o.amount_pos
  distinct := o.distinct.symm

/-- A correction whose approval lapsed before it was posted. -/
def Correction.lapse (c : Correction) (now : Instant) : Correction :=
  { c with
    status := .expired
    decisionReason := some "approval_window_expired"
    cancelledAt := some now
    updatedAt := now }

/-- A correction posted by its compensation. -/
def Correction.post (c : Correction) (compensation : Uuid) (key : String) (now : Instant) :
    Correction :=
  { c with
    status := .posted
    compensationTransferId := some compensation
    postedAt := some now
    updatedAt := now
    postIdempotencyKey := some key }

/-- The audit event of a posting or of a lapse. -/
def correctionAudit (p : CorrectionPost) (ids : CorrectionPostIds) (eventType outcome : String)
    (metadata : Json) : AuditEvent where
  id := ids.audit
  tenantId := p.tenantId
  actorSubjectId := some p.actorSubjectId
  eventType := eventType
  targetType := "transfer_correction"
  targetId := some p.correctionId.text
  outcome := outcome
  correlationId := p.correlationId
  metadata := metadata
  occurredAt := p.now

/-- The approver as the audit metadata shows it. -/
def approverJson (c : Correction) : Json :=
  match c.approverSubjectId with
  | none => .null
  | some a => .str a

/-- The branch of a posting that comes after the approval window. -/
def lapseCorrection (p : CorrectionPost) (ids : CorrectionPostIds) (c : Correction) : Proc Bool := do
  let s ← Txn.get
  Txn.set { s with corrections := s.corrections.replace (c.lapse p.now) }
  insertApproval {
    id := ids.approval
    tenantId := p.tenantId
    commandType := .transferCompensation
    targetId := p.correctionId
    requesterSubjectId := c.requesterSubjectId
    approverSubjectId := none
    status := .expired
    expiresAt := p.now
    decisionReason := some "approval_window_expired"
    correlationId := p.correlationId
    policyVersion := c.policyVersion
    createdAt := p.now
    decidedAt := some p.now }
  insertAudit (correctionAudit p ids "transfer_correction.expired" "failed"
    (.obj [("function", .str "controlled_post_transfer_correction_v1"),
      ("requester_subject_id", .str c.requesterSubjectId), ("approver_subject_id", approverJson c)]))
  pure false

/-- The accounts of the original: they are the tenant's, not closed, and hold its currency. -/
def checkCorrectionAccounts (p : CorrectionPost) (o : Transfer) : Proc Unit := do
  let s ← Txn.get
  let source ← Txn.orRaise (s.account? p.tenantId o.creditAccountId)
    ⟨"42501", "controlled_correction_not_found", "controlled correction account boundary denied"⟩
  let destination ← Txn.orRaise (s.account? p.tenantId o.debitAccountId)
    ⟨"42501", "controlled_correction_not_found", "controlled correction account boundary denied"⟩
  Txn.raiseIf (source.1.status = .closed ∨ destination.1.status = .closed ∨
      source.1.currency ≠ o.currency ∨ destination.1.currency ≠ o.currency)
    ⟨"55000", "controlled_correction_conflict",
      "controlled correction account state conflicts with posting"⟩

/-- The branch of a posting that reverses the original. -/
def postCompensation (p : CorrectionPost) (ids : CorrectionPostIds) (c : Correction)
    (o : Transfer) : Proc Bool := do
  Txn.raiseIf (c.controlMode = .productionDualControl ∧ c.stepUpRequired = true ∧
      ¬RecentStepUp p.stepUp p.now)
    ⟨"42501", "controlled_correction_step_up", "controlled correction step-up is required"⟩
  checkCorrectionAccounts p o
  insertTransfer (compensationTransfer p ids c o)
  insertJournal (transferJournal p.tenantId p.now ids.journal ids.compensation)
  insertPosting (transferPosting p.tenantId ids.debitPosting ids.journal o.creditAccountId .debit
    o.amount o.currency p.now)
  insertPosting (transferPosting p.tenantId ids.creditPosting ids.journal o.debitAccountId .credit
    o.amount o.currency p.now)
  let source ← debitBalance o.creditAccountId o.amount p.now
    ⟨"23514", "controlled_correction_conflict", "controlled correction source balance conflict"⟩
  let destination ← creditBalance o.debitAccountId o.amount p.now
  let s ← Txn.get
  Txn.set { s with
    corrections := s.corrections.replace (c.post ids.compensation p.idempotencyKey p.now) }
  insertOutbox (transferBalanceEvent p.tenantId ids.sourceEvent o.creditAccountId ids.compensation
    o.currency source p.occurredAt (some o.amount))
  insertOutbox (transferBalanceEvent p.tenantId ids.destinationEvent o.debitAccountId
    ids.compensation o.currency destination p.occurredAt (some o.amount))
  insertAudit (correctionAudit p ids "transfer_correction.posted" "succeeded"
    (.obj [("function", .str "controlled_post_transfer_correction_v1"),
      ("original_transfer_id", .str o.id.text),
      ("compensation_transfer_id", .str ids.compensation.text),
      ("requester_subject_id", .str c.requesterSubjectId), ("approver_subject_id", approverJson c),
      ("step_up_verified", .bool (c.stepUpRequired = false ∨ RecentStepUp p.stepUp p.now))]))
  pure false

/-- A correction that is not posted yet: its state checks, and then one of the two branches. -/
def settleCorrection (p : CorrectionPost) (ids : CorrectionPostIds) (c : Correction)
    (o : Transfer) : Proc Bool := do
  Txn.raiseIf (c.status ≠ .approved ∨ c.approverSubjectId = none ∨ o.status ≠ .posted)
    ⟨"55000", "controlled_correction_conflict", "controlled correction state conflicts with posting"⟩
  Txn.raiseIf (c.controlMode = .productionDualControl ∧ (c.requesterSubjectId = p.actorSubjectId ∨
      some c.requesterSubjectId = c.approverSubjectId))
    ⟨"42501", "controlled_correction_forbidden",
      "controlled correction requires an independent actor"⟩
  if c.approvalExpiresAt ≤ p.now then lapseCorrection p ids c else postCompensation p ids c o

/-- `controlled_post_transfer_correction_v1`: whether the call is a replay. -/
def controlledPostTransferCorrectionV1 (sess : Session) (p : CorrectionPost)
    (ids : CorrectionPostIds) : Proc Bool := do
  Txn.raiseIf (¬sess.Allows p.tenantId ∨ p.actorSubjectId ≠ sess.actorId)
    ⟨"42501", "controlled_correction_actor", "controlled command scope denied"⟩
  Txn.raiseIf (¬IsActor p.actorSubjectId ∨ ¬IsKey p.idempotencyKey)
    ⟨"22023", "controlled_correction_input", "controlled correction input is invalid"⟩
  let s ← Txn.get
  Txn.raiseIf (¬s.settings.HasRole p.tenantId p.actorSubjectId [.finance])
    ⟨"42501", "controlled_correction_actor", "controlled correction actor is not authorized"⟩
  let c ← Txn.orRaise ((s.corrections.find? p.correctionId).filter (·.tenantId = p.tenantId))
    ⟨"P0002", "controlled_correction_not_found", "controlled correction was not found"⟩
  let o ← Txn.orRaise (s.transfers.find? c.originalTransferId)
    ⟨"P0002", "controlled_correction_not_found", "controlled correction was not found"⟩
  if c.status = .posted then do
    Txn.raiseIf (∃ k, c.postIdempotencyKey = some k ∧ k ≠ "" ∧ k ≠ p.idempotencyKey)
      ⟨"23505", "controlled_correction_idempotency", "controlled correction idempotency conflict"⟩
    pure true
  else settleCorrection p ids c o

/-! ## What a returning call did -/

/-- The table grew by one record of a transfer correction. -/
def CorrectionEvidence (t t' : Table Approval.id) : Prop :=
  ∃ a, t.insert? a = some t' ∧ a.commandType = .transferCompensation

/-- A request either repeated an earlier one or added a correction of a posted transfer. -/
theorem controlledRequestCorrectionV1_ok {d : Digest} {sess : Session} {p : CorrectionRequest}
    {ids : EvidenceIds} {s s' : Db} {r : Uuid × Bool}
    (h : controlledRequestCorrectionV1 d sess p ids s = .ok (r, s')) :
    s' = s ∨ ∃ original policy, s.transfers.find? p.original = some original ∧
      original.tenantId = p.tenant ∧ original.status = .posted ∧
      original.compensationOfTransferId = none ∧
      s.corrections.insert? (requestedCorrection p policy ids.created) = some s'.corrections ∧
      CorrectionEvidence s.approvals s'.approvals ∧
      s' = { s with
        corrections := s'.corrections, approvals := s'.approvals, audit := s'.audit } := by
  simp only [controlledRequestCorrectionV1, Txn.get_bind_ok, Txn.raiseIf_bind_ok] at h
  obtain ⟨-, -, h⟩ := h
  rcases hprior : s.corrections.rows.find? (fun c => c.tenantId = p.tenant ∧
    c.requesterSubjectId = p.actor ∧ c.idempotencyKey = p.key) with _ | prior
  · simp only [hprior, createCorrection, insertCorrection, insertApproval, Txn.bind_assoc,
      Txn.get_bind_ok,
      Txn.raiseIf_bind_ok, Txn.orRaise_bind_ok, insertRow_bind_ok, Option.filter_eq_some_iff,
      decide_eq_true_eq, not_or, not_not, ne_eq] at h
    obtain ⟨-, original, ⟨hfind, htenant⟩, policy, -, ⟨hposted, hnone⟩, -, -, corrections, hc, -,
      approvals, happrovals, h⟩ := h
    obtain ⟨_, _, haudit, h⟩ := Txn.bind_ok.mp h
    obtain ⟨audit, -, rfl⟩ := controlledAppendAuditV1_ok haudit
    obtain ⟨-, rfl⟩ := Txn.pure_ok.mp h
    exact .inr ⟨original, policy, hfind, htenant, hposted, hnone, hc, ⟨_, happrovals, rfl⟩, rfl⟩
  · simp only [hprior, Txn.raiseIf_bind_ok, Txn.pure_ok] at h
    exact .inl h.2.2.symm

/-- What a verdict may say: it never posts a correction, and it comes to one that is open. -/
theorem correctionVerdict_ok {p : CorrectionDecisionRequest} {c : Correction} {s s' : Db}
    {r : Option CorrectionVerdict} (h : correctionVerdict p c s = .ok (r, s')) :
    s = s' ∧ ∀ v, r = some v → v.status ≠ .posted ∧ v.status ≠ .requested ∧
      (c.status = .requested ∨ c.status = .approved) := by
  unfold correctionVerdict at h
  -- A cancellation, an approved request, a lapsed one and a decision.
  split_ifs at h with hcancel happroved hexpired
  · simp only [Txn.raiseIf_bind_ok, Txn.pure_ok, not_and, not_not, ne_eq] at h
    obtain ⟨-, hopen, rfl, hs⟩ := h
    refine ⟨hs, fun v hv => ?_⟩
    cases hv
    refine ⟨by simp, by simp, ?_⟩
    by_cases hreq : c.status = .requested
    · exact .inl hreq
    · exact .inr (hopen hreq)
  · obtain ⟨rfl, hs⟩ := Txn.pure_ok.mp h
    exact ⟨hs, fun v hv => by cases hv⟩
  · simp only [Txn.raiseIf_bind_ok, Txn.pure_ok, ne_eq, not_not] at h
    obtain ⟨hreq, rfl, hs⟩ := h
    refine ⟨hs, fun v hv => ?_⟩
    cases hv
    exact ⟨by simp, by simp, .inl hreq⟩
  · simp only [Txn.raiseIf_bind_ok, Txn.pure_ok, ne_eq, not_not] at h
    obtain ⟨hreq, -, -, rfl, hs⟩ := h
    refine ⟨hs, fun v hv => ?_⟩
    cases hv
    -- Neither decision leads to one of the two states.
    exact ⟨by cases p.decision <;> simp [CorrectionDecision.status],
      by cases p.decision <;> simp [CorrectionDecision.status], .inl hreq⟩

/-- A decision either found nothing to do or gave one correction its verdict. -/
theorem controlledDecideCorrectionV1_ok {sess : Session} {p : CorrectionDecisionRequest}
    {ids : EvidenceIds} {s s' : Db} {u : Unit}
    (h : controlledDecideCorrectionV1 sess p ids s = .ok (u, s')) :
    s' = s ∨ ∃ c v, s.corrections.find? p.correction = some c ∧ c.tenantId = p.tenant ∧
      v.status ≠ .posted ∧ v.status ≠ .requested ∧
      (c.status = .requested ∨ c.status = .approved) ∧
      s'.corrections = s.corrections.replace (c.decide v (instant p.decidedAt)) ∧
      CorrectionEvidence s.approvals s'.approvals ∧
      s' = { s with
        corrections := s'.corrections, approvals := s'.approvals, audit := s'.audit } := by
  simp only [controlledDecideCorrectionV1, Txn.get_bind_ok, Txn.raiseIf_bind_ok,
    Txn.orRaise_bind_ok, Option.filter_eq_some_iff, decide_eq_true_eq] at h
  obtain ⟨-, -, -, c, ⟨hfind, htenant⟩, h⟩ := h
  obtain ⟨r, _, hverdict, h⟩ := Txn.bind_ok.mp h
  obtain ⟨rfl, hv⟩ := correctionVerdict_ok hverdict
  rcases r with _ | v
  · exact .inl (Txn.pure_ok.mp h).2.symm
  · obtain ⟨hposted, hrequested, hopen⟩ := hv v rfl
    simp only [recordVerdict, insertApproval, Txn.bind_assoc, Txn.get_bind_ok, Txn.set_bind_ok,
      Txn.raiseIf_bind_ok, insertRow_bind_ok] at h
    obtain ⟨-, approvals, happrovals, h⟩ := h
    obtain ⟨audit, -, rfl⟩ := controlledAppendAuditV1_ok h
    exact .inr ⟨c, v, hfind, htenant, hposted, hrequested, hopen, rfl, ⟨_, happrovals, rfl⟩, rfl⟩

/-- The accounts of a correction, checked. -/
structure CorrectionAccounts (s : Db) (p : CorrectionPost) (o : Transfer) : Prop where
  source : ∃ a b, s.account? p.tenantId o.creditAccountId = some (a, b) ∧ a.currency = o.currency
  destination : ∃ a b, s.account? p.tenantId o.debitAccountId = some (a, b) ∧
    a.currency = o.currency

/-- The accounts of a correction pass the check, which changes nothing. -/
theorem checkCorrectionAccounts_ok {p : CorrectionPost} {o : Transfer} {s s' : Db} {u : Unit}
    (h : checkCorrectionAccounts p o s = .ok (u, s')) : s = s' ∧ CorrectionAccounts s p o := by
  simp only [checkCorrectionAccounts, Txn.get_bind_ok, Txn.orRaise_bind_ok, Txn.raiseIf_ok, not_or,
    not_not, ne_eq] at h
  obtain ⟨⟨a, b⟩, ha, ⟨a', b'⟩, ha', ⟨-, -, hcur, hcur'⟩, hs⟩ := h
  exact ⟨hs, ⟨a, b, ha, hcur⟩, ⟨a', b', ha', hcur'⟩⟩

/-- A call that posted a compensation. -/
structure PostedCorrection (p : CorrectionPost) (ids : CorrectionPostIds) (s s' : Db) where
  correction : Correction
  original : Transfer
  /-- The balances before and after, the account that is debited first. -/
  source : Balance
  source' : Balance
  destination : Balance
  destination' : Balance
  /-- The balance events as they were stored. -/
  sourceEvent : OutboxEvent
  destinationEvent : OutboxEvent
  correction_find : s.corrections.find? p.correctionId = some correction
  correction_tenant : correction.tenantId = p.tenantId
  correction_status : correction.status = .approved
  approver : correction.approverSubjectId ≠ none
  /-- In production, neither the approver nor the caller is the requester. -/
  independent : correction.controlMode = .productionDualControl →
    correction.requesterSubjectId ≠ p.actorSubjectId ∧
      some correction.requesterSubjectId ≠ correction.approverSubjectId
  unexpired : p.now < correction.approvalExpiresAt
  original_find : s.transfers.find? correction.originalTransferId = some original
  original_status : original.status = .posted
  accounts : CorrectionAccounts s p original
  transfers : s.transfers.insert? (compensationTransfer p ids correction original) =
    some s'.transfers
  uncompensated : ¬∃ y ∈ s.transfers.rows,
    (compensationTransfer p ids correction original).Clashes y
  journals : s.journals.insert? (transferJournal p.tenantId p.now ids.journal ids.compensation) =
    some s'.journals
  postings : Posting.Pair s p.tenantId ids.journal ids.debitPosting ids.creditPosting
    original.creditAccountId original.debitAccountId original.amount original.currency p.now
    s'.postings
  move : Balance.Move s.balances s'.balances original.creditAccountId original.debitAccountId
    original.amount p.now source source' destination destination'
  corrections : s'.corrections =
    s.corrections.replace (correction.post ids.compensation p.idempotencyKey p.now)
  source_enrich : enrichReservedBalanceEventV1 s' (transferBalanceEvent p.tenantId ids.sourceEvent
    original.creditAccountId ids.compensation original.currency source' p.occurredAt
    (some original.amount)) = some sourceEvent
  destination_enrich : enrichReservedBalanceEventV1 s' (transferBalanceEvent p.tenantId
    ids.destinationEvent original.debitAccountId ids.compensation original.currency destination'
    p.occurredAt (some original.amount)) = some destinationEvent
  outbox : ∃ t₁, s.outbox.insert? sourceEvent = some t₁ ∧
    t₁.insert? destinationEvent = some s'.outbox
  frame : s' = { s with
    transfers := s'.transfers, journals := s'.journals, postings := s'.postings
    balances := s'.balances, corrections := s'.corrections, outbox := s'.outbox, audit := s'.audit }

/-- A call that found the approval lapsed. -/
structure LapsedCorrection (p : CorrectionPost) (s s' : Db) (c : Correction) : Prop where
  find : s.corrections.find? p.correctionId = some c
  tenant : c.tenantId = p.tenantId
  status : c.status = .approved
  corrections : s'.corrections = s.corrections.replace (c.lapse p.now)
  evidence : CorrectionEvidence s.approvals s'.approvals
  frame : s' = { s with
    corrections := s'.corrections, approvals := s'.approvals, audit := s'.audit }

/-- A compensation that is posted moves the amount back, with its journal, postings and events. -/
theorem postCompensation_ok {p : CorrectionPost} {ids : CorrectionPostIds} {c : Correction}
    {o : Transfer} {s s' : Db} {r : Bool} (hfind : s.corrections.find? p.correctionId = some c)
    (htenant : c.tenantId = p.tenantId) (hstatus : c.status = .approved)
    (happrover : c.approverSubjectId ≠ none)
    (hindependent : c.controlMode = .productionDualControl →
      c.requesterSubjectId ≠ p.actorSubjectId ∧ some c.requesterSubjectId ≠ c.approverSubjectId)
    (hunexpired : p.now < c.approvalExpiresAt)
    (hfind' : s.transfers.find? c.originalTransferId = some o) (hstatus' : o.status = .posted)
    (h : postCompensation p ids c o s = .ok (r, s')) : Nonempty (PostedCorrection p ids s s') := by
  simp only [postCompensation, Txn.raiseIf_bind_ok] at h
  obtain ⟨-, h⟩ := h
  -- The checks on the accounts write nothing.
  obtain ⟨_, _, hchecks, h⟩ := Txn.bind_ok.mp h
  obtain ⟨rfl, haccounts⟩ := checkCorrectionAccounts_ok hchecks
  simp only [insertTransfer, insertJournal, insertPosting, Txn.bind_assoc, Txn.get_bind_ok,
    Txn.raiseIf_bind_ok, insertRow_bind_ok, not_not] at h
  obtain ⟨hclash, transfers, htr, -, journals, hj, hda, t₁, hp₁, hca, postings, hp₂, h⟩ := h
  -- The balances move the other way round.
  obtain ⟨source', _, hdebit, h⟩ := Txn.bind_ok.mp h
  obtain ⟨destination', _, hcredit, h⟩ := Txn.bind_ok.mp h
  obtain ⟨source, hsource, -, -, hw, rfl⟩ := debitBalance_ok hdebit
  obtain ⟨destination, hdest, hw', rfl⟩ := creditBalance_ok hcredit
  simp only [insertOutbox, insertAudit, Txn.bind_assoc, Txn.get_bind_ok, Txn.set_bind_ok,
    Txn.orRaise_bind_ok, Txn.raiseIf_bind_ok, insertRow_bind_ok, Txn.pure_ok] at h
  -- One event is written for each account.
  obtain ⟨e₁, he₁, -, o₁, ho₁, e₂, he₂, -, o₂, ho₂, audit, -, -, rfl⟩ := h
  exact ⟨{
    correction := c, original := o, source := source, source' := source'
    destination := destination, destination' := destination'
    sourceEvent := e₁, destinationEvent := e₂
    correction_find := hfind
    correction_tenant := htenant
    correction_status := hstatus
    approver := happrover
    independent := hindependent
    unexpired := hunexpired
    original_find := hfind'
    original_status := hstatus'
    accounts := haccounts
    transfers := htr
    uncompensated := hclash
    journals := hj
    postings := ⟨⟨t₁, hp₁, hp₂⟩, hda, hca⟩
    move := ⟨hsource, hw, hdest, hw', rfl⟩
    corrections := rfl
    source_enrich := he₁
    destination_enrich := he₂
    outbox := ⟨o₁, ho₁, ho₂⟩
    frame := rfl }⟩

/-- A correction that lapses is marked as expired, with its record. -/
theorem lapseCorrection_ok {p : CorrectionPost} {ids : CorrectionPostIds} {c : Correction}
    {s s' : Db} {r : Bool} (h : lapseCorrection p ids c s = .ok (r, s')) :
    s'.corrections = s.corrections.replace (c.lapse p.now) ∧
      CorrectionEvidence s.approvals s'.approvals ∧ s' = { s with
      corrections := s'.corrections, approvals := s'.approvals, audit := s'.audit } := by
  simp only [lapseCorrection, insertApproval, insertAudit, Txn.bind_assoc, Txn.get_bind_ok,
    Txn.set_bind_ok, Txn.raiseIf_bind_ok, insertRow_bind_ok, Txn.pure_ok] at h
  obtain ⟨-, approvals, happrovals, audit, -, -, rfl⟩ := h
  exact ⟨rfl, ⟨_, happrovals, rfl⟩, rfl⟩

/-- Everything that a returning posting can have done. -/
theorem controlledPostTransferCorrectionV1_ok {sess : Session} {p : CorrectionPost}
    {ids : CorrectionPostIds} {s s' : Db} {r : Bool}
    (h : controlledPostTransferCorrectionV1 sess p ids s = .ok (r, s')) :
    s' = s ∨ (∃ c, LapsedCorrection p s s' c) ∨ Nonempty (PostedCorrection p ids s s') := by
  simp only [controlledPostTransferCorrectionV1, Txn.get_bind_ok, Txn.raiseIf_bind_ok,
    Txn.orRaise_bind_ok, Option.filter_eq_some_iff, decide_eq_true_eq] at h
  obtain ⟨-, -, -, c, ⟨hfind, htenant⟩, o, hfind', h⟩ := h
  split_ifs at h
  · rw [Txn.raiseIf_bind_ok, Txn.pure_ok] at h
    exact .inl h.2.2.symm
  · simp only [settleCorrection, Txn.raiseIf_bind_ok, not_or, not_not, ne_eq] at h
    obtain ⟨⟨hstatus, happrover, hstatus'⟩, hindependent, h⟩ := h
    split_ifs at h with hexpired
    · obtain ⟨hc, hevidence, hframe⟩ := lapseCorrection_ok h
      exact .inr (.inl ⟨c, hfind, htenant, hstatus, hc, hevidence, hframe⟩)
    · refine .inr (.inr (postCompensation_ok hfind htenant hstatus happrover (fun hmode => ?_)
        (not_le.mp hexpired) hfind' hstatus' h))
      exact not_or.mp fun hsame => hindependent ⟨hmode, hsame⟩

end LedgerSync
