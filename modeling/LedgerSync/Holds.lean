import LedgerSync.Funding
import Mathlib.Computability.Primrec.List

/-!
# Holds

A hold reserves an amount of a customer account: it lowers the available amount and leaves the
ledger amount. Its owner captures it, which turns it into a transfer, or releases it; a background
worker expires it under a leased claim. Each of the three ends it for good.
-/

namespace LedgerSync

open Lib

/-! ## Private helpers -/

/-- The readings of `clock_timestamp()` in `hold_record_change_v1`. -/
structure ChangeClock where
  audit : Timestamp
  payload : Timestamp
  event : Timestamp

/-- The identifiers that `hold_record_change_v1` draws. -/
structure ChangeIds where
  holdEvent : Uuid
  audit : Uuid
  outbox : Uuid

/-- `hold_command_existing_v1`: the stored response of a command that was given before. -/
def holdCommandExistingV1 (sess : Session) (t : Uuid) (a op k : String) (fp : Bytes) :
    Proc (Option Json) := do
  Txn.raiseIf (¬sess.Allows t ∨ a ≠ sess.actorId) ⟨"42501", "", "hold scope denied"⟩
  Txn.raiseIf (op ∉ ["create", "capture", "release"] ∨ ¬IsKey k ∨ fp.length ≠ 32)
    ⟨"22023", "", "invalid hold command"⟩
  let s ← Txn.get
  Txn.raiseIf (¬s.settings.HasRole t a [.operator, .finance])
    ⟨"42501", "", "hold actor denied"⟩
  let previous := s.holdCommands.find? (t, a, op, k)
  Txn.raiseIf (∃ c, previous = some c ∧ c.fingerprint ≠ fp)
    ⟨"23505", "hold_intent_conflict", "hold intent conflict"⟩
  pure (previous.map fun c => c.response.merge (.obj [("replayed", .bool true)]))

/-- `hold_command_store_v1`. -/
def holdCommandStoreV1 (t : Uuid) (a op k : String) (fp : Bytes) (result : Json) : Proc Json := do
  insertRow Db.holdCommands (fun t s => { s with holdCommands := t }) "hold_commands_pkey"
    ⟨t, a, op, k, fp, result⟩
  pure result

/-- `INSERT INTO hold_events`; a hold enters each state once. -/
def insertHoldEvent (e : HoldEvent) : Proc Unit := do
  let s ← Txn.get
  Txn.raiseIf (∃ x ∈ s.holdEvents.rows, x.holdId = e.holdId ∧ x.state = e.state)
    (uniqueViolation "hold_events_hold_id_state_key")
  insertRow Db.holdEvents (fun t s => { s with holdEvents := t }) "hold_events_pkey" e

/-- The balance event of a hold. -/
def holdBalanceEvent (t : Uuid) (h : Hold) (b : Balance) (ids : ChangeIds) (clock : ChangeClock) :
    OutboxEvent where
  id := ids.outbox
  tenantId := t
  transferId := none
  fundingEventId := none
  openingImportId := none
  holdId := some h.id
  accountId := some h.debitAccountId
  aggregateType := "account_balance"
  aggregateId := h.debitAccountId
  eventType := balanceChangedV2
  aggregateVersion := b.version
  payload := .obj [("event_id", .str ids.outbox.text), ("event_type", .str balanceChangedV2),
    ("account_id", .str h.debitAccountId.text), ("hold_id", .str h.id.text),
    ("currency", .str h.currency), ("available_minor", .str b.available.text),
    ("ledger_minor", .str b.ledger.text),
    ("reserved_minor", .str (decimal (b.ledger - b.available))),
    ("balance_version", .str b.version.text), ("occurred_at", .str (offsetText clock.payload))]
  occurredAt := instant clock.event

/-- The balance event, unless the caller emits one itself. -/
def emitHoldBalance (emit : Bool) (e : OutboxEvent) : Proc Unit :=
  if emit then insertOutbox e else pure ()

/-- `hold_record_change_v1`: the evidence of a state change, and the version of the source
balance. -/
def holdRecordChangeV1 (sess : Session) (t : Uuid) (a : String) (h c : Uuid) (newState : HoldState)
    (emit : Bool) (ids : ChangeIds) (clock : ChangeClock) : Proc Bigint := do
  let s ← Txn.get
  let hold ← Txn.orRaise ((s.holds.find? h).filter (·.tenantId = t)) noDataFound
  let b ← Txn.orRaise (s.balances.find? hold.debitAccountId) noDataFound
  insertHoldEvent ⟨ids.holdEvent, t, h, newState, a, c, b.version⟩
  controlledAppendAuditV1 sess {
    id := ids.audit
    tenantId := t
    actorSubjectId := some a
    eventType := "hold." ++ newState.text
    targetType := "hold"
    targetId := some h.text
    outcome := "succeeded"
    correlationId := c
    metadata := .obj [("state", .str newState.text)]
    occurredAt := instant clock.audit }
  emitHoldBalance emit (holdBalanceEvent t hold b ids clock)
  pure b.version

/-- The available amount of an account changed, and its version raised. -/
def moveAvailable (account : Uuid) (delta : ℤ) (now : Instant) : Proc Unit := do
  let s ← Txn.get
  match s.balances.find? account with
  | none => pure ()
  | some b => do
    let _ ← writeBalance b (b.available + delta) b.ledger (b.version + 1) now
    pure ()

/-- A hold in a final state. -/
def Hold.finish (h : Hold) (state : HoldState) (now : Instant) (transfer : Option Uuid) : Hold :=
  { h with state := state, version := 2, completedAt := some now, transferId := transfer }

/-- `UPDATE account_holds`, with the trigger that keeps a finished hold and the check that ties a
captured hold to its transfer. -/
def finishHold (h : Hold) (state : HoldState) (now : Instant) (transfer : Option Uuid) :
    Proc Unit := do
  Txn.raiseIf (h.state ≠ .active ∨ state = .active) ⟨"55000", "", "hold history is immutable"⟩
  Txn.raiseIf (¬(state = .captured ↔ transfer ≠ none)) (checkViolation "account_holds_check")
  let s ← Txn.get
  Txn.set { s with holds := s.holds.replace (h.finish state now transfer) }

/-! ## Creation -/

/-- The arguments of `controlled_create_hold_v1`. -/
structure HoldRequest where
  tenant : Uuid
  actor : String
  key : String
  correlation : Uuid
  source : Uuid
  destination : Uuid
  amount : Bigint
  currency : String
  ttlSeconds : ℤ

/-- The clock readings of a creation. -/
structure HoldClock where
  now : Timestamp
  change : ChangeClock

/-- The input check of a creation. -/
def HoldRequest.WellFormed (p : HoldRequest) : Prop :=
  p.source ≠ p.destination ∧ 0 < (p.amount : ℤ) ∧ IsCurrency p.currency ∧
    1 ≤ p.ttlSeconds ∧ p.ttlSeconds ≤ 86400

/-- Whether a request is well formed can be decided. -/
instance (p : HoldRequest) : Decidable p.WellFormed :=
  inferInstanceAs (Decidable (_ ∧ _ ∧ _ ∧ _ ∧ _))

/-- The fingerprint of a creation. -/
def HoldRequest.fingerprint (d : Digest) (p : HoldRequest) : Bytes :=
  d.sha256 (String.ofList (Json.arr [.str p.source.text, .str p.destination.text,
    .str p.amount.text, .str p.currency, .num p.ttlSeconds]).render)

/-- A later clock reading, within the years that the calendar shows. -/
def laterReading? (t : Timestamp) (seconds : ℤ) : Option Timestamp :=
  if h : t.micros + (seconds * 1000000).toNat < 315537897600000000 then
    some ⟨t.micros + (seconds * 1000000).toNat, h⟩
  else none

/-- The new hold; there is none when the row fails its checks. -/
def activeHold? (p : HoldRequest) (id : Uuid) (now expires : Timestamp) : Option Hold :=
  if h : 0 < (p.amount : ℤ) ∧ p.source ≠ p.destination then
    some {
      id := id
      tenantId := p.tenant
      debitAccountId := p.source
      creditAccountId := p.destination
      amount := p.amount
      currency := p.currency
      state := .active
      expiresAt := instant expires
      createdAt := instant now
      createdBy := p.actor
      version := 1
      completedAt := none
      transferId := none
      amount_pos := h.1
      distinct := h.2 }
  else none

/-- The active holds of a tenant. -/
def Db.activeHolds (s : Db) (tenant : Uuid) : List Hold :=
  s.holds.rows.filter fun h => h.tenantId = tenant ∧ h.state = .active

/-- The account, policy, capacity and balance checks of a creation. -/
def checkHoldRequest (p : HoldRequest) : Proc Unit := do
  let s ← Txn.get
  let source ← Txn.orRaise ((s.account? p.tenant p.source).filter fun r =>
      r.1.kind = .customer ∧ r.1.currency = p.currency ∧
        s.settings.OwnsDebit p.tenant p.source p.actor ∧
        s.settings.MayCredit p.tenant p.destination p.actor)
    ⟨"42501", "", "reservation account denied"⟩
  Txn.raiseIf (source.1.status ≠ .active ∨ ¬∃ a, s.accounts.find? p.destination = some a ∧
      a.tenantId = p.tenant ∧ a.status = .active ∧ a.currency = p.currency ∧ a.kind = .customer)
    ⟨"55000", "", "reservation account unavailable"⟩
  Txn.raiseIf (¬∃ q, s.settings.transferPolicies.find? p.tenant = some q ∧ q.currency = p.currency)
    ⟨"42501", "", "reservation currency policy denied"⟩
  Txn.raiseIf (1000 ≤ (s.activeHolds p.tenant).length)
    ⟨"54000", "", "active reservation capacity reached"⟩
  Txn.raiseIf ((source.2.available : ℤ) < p.amount)
    ⟨"22023", "hold_insufficient_funds", "insufficient spendable funds"⟩

/-- The expiry job of a new hold. -/
def expiryJob (h : Hold) : HoldJob := ⟨h.id, h.tenantId, h.expiresAt, false, none, 0, none⟩

/-- The rows of a new hold. -/
def storeHold (d : Digest) (sess : Session) (p : HoldRequest) (clock : HoldClock) (id : Uuid)
    (ids : ChangeIds) : Proc Json := do
  checkHoldRequest p
  let expires ← Txn.orRaise (laterReading? clock.now p.ttlSeconds)
    ⟨"22008", "", "timestamp out of range"⟩
  let h ← Txn.orRaise (activeHold? p id clock.now expires) (checkViolation "account_holds_check")
  insertRow Db.holds (fun t s => { s with holds := t }) "account_holds_pkey" h
  moveAvailable p.source (-p.amount) (instant clock.now)
  insertRow Db.holdJobs (fun t s => { s with holdJobs := t }) "hold_expiry_jobs_pkey" (expiryJob h)
  let version ← holdRecordChangeV1 sess p.tenant p.actor id p.correlation .active true ids
    clock.change
  holdCommandStoreV1 p.tenant p.actor "create" p.key (p.fingerprint d)
    (.obj [("id", .str id.text), ("state", .str "active"), ("replayed", .bool false),
      ("source_balance_version", .str version.text), ("expires_at", .str (offsetText expires))])

/-- `controlled_create_hold_v1`. -/
def controlledCreateHoldV1 (d : Digest) (sess : Session) (p : HoldRequest) (clock : HoldClock)
    (id : Uuid) (ids : ChangeIds) : Proc Json := do
  Txn.raiseIf (¬p.WellFormed) ⟨"22023", "", "invalid reservation"⟩
  let previous ← holdCommandExistingV1 sess p.tenant p.actor "create" p.key (p.fingerprint d)
  match previous with
  | some response => pure response
  | none => storeHold d sess p clock id ids

/-! ## Decisions -/

/-- The decisions of an owner. -/
inductive HoldDecision where
  | capture
  | release
deriving DecidableEq

/-- The text of a decision. -/
def HoldDecision.text : HoldDecision → String
  | capture => "capture"
  | release => "release"

/-- The arguments of `controlled_decide_hold_v1`. -/
structure HoldDecisionRequest where
  tenant : Uuid
  actor : String
  key : String
  correlation : Uuid
  target : Uuid
  decision : HoldDecision

/-- The clock readings of a decision. -/
structure DecisionClock where
  now : Timestamp
  change : ChangeClock
  denied : Timestamp

/-- The identifiers that a decision draws. -/
structure DecisionIds where
  transfer : TransferIds
  change : ChangeIds
  deniedAudit : Uuid

/-- The fingerprint of a decision. -/
def HoldDecisionRequest.fingerprint (d : Digest) (p : HoldDecisionRequest) : Bytes :=
  d.sha256 (String.ofList (Json.arr [.str p.target.text, .str p.decision.text]).render)

/-- The key under which a capture submits its transfer. -/
def captureKey (target : Uuid) : String := "hold-capture-" ++ target.text

/-- The transfer that a capture submits, before its fingerprint is known. -/
def captureRequest (p : HoldDecisionRequest) (h : Hold) (now : Timestamp) (fp : Bytes) :
    TransferRequest where
  tenantId := p.tenant
  actorSubjectId := p.actor
  debitAccountId := h.debitAccountId
  creditAccountId := h.creditAccountId
  amount := h.amount
  currency := h.currency
  idempotencyKey := captureKey p.target
  requestFingerprint := fp
  correlationId := p.correlation
  pilotCurrency := h.currency
  occurredAt := now

/-- The transfer that a capture submits. -/
def captureTransfer (d : Digest) (p : HoldDecisionRequest) (h : Hold) (now : Timestamp) :
    TransferRequest :=
  captureRequest p h now (d.sha256 (captureRequest p h now []).canonical)

/-- The constraints of the transfer errors that deny a capture; all other errors are raised on. -/
def captureDenials : List String :=
  ["controlled_transfer_policy_missing", "controlled_transfer_currency",
    "controlled_transfer_amount_minimum", "controlled_transfer_amount_maximum",
    "controlled_transfer_account_status", "controlled_transfer_account_currency",
    "controlled_transfer_source_actor", "controlled_transfer_destination_actor",
    "controlled_transfer_actor_velocity", "controlled_transfer_source_velocity",
    "controlled_transfer_tenant_velocity"]

/-- The response of a capture that left the hold active. -/
def deniedResponse (target : Uuid) (code : String) : Json :=
  .obj [("id", .str target.text), ("state", .str "active"), ("replayed", .bool false),
    ("rejection_code", .str code)]

/-- The release of the reserved amount that a capture's transfer spends; it is private to the
transaction and does not advance a version. -/
def releaseForCapture (h : Hold) : Proc Unit := do
  let s ← Txn.get
  match s.balances.find? h.debitAccountId with
  | none => pure ()
  | some b => do
    let _ ← writeBalance b (b.available + h.amount) b.ledger b.version b.updatedAt
    pure ()

/-- The guarded block of a capture. -/
def captureBlock (d : Digest) (sess : Session) (p : HoldDecisionRequest) (h : Hold)
    (clock : DecisionClock) (ids : DecisionIds) : Proc Json := do
  releaseForCapture h
  let (body, replayed) ← controlledSubmitTransferV1 d sess (captureTransfer d p h clock.now)
    ids.transfer
  Txn.raiseIf ((∃ st, body.text? "status" = some st ∧ st ≠ "posted") ∨ replayed = true)
    ⟨"P1601", "", "capture transfer denied"⟩
  finishHold h .captured (instant clock.now) ((body.text? "transfer_id").bind Uuid.ofText?)
  let version ← holdRecordChangeV1 sess p.tenant p.actor p.target p.correlation .captured false
    ids.change clock.change
  pure (.obj [("id", .str p.target.text), ("state", .str "captured"), ("replayed", .bool false),
    ("source_balance_version", .str version.text),
    ("transfer_id", ((body.text? "transfer_id").map Json.str).getD .null)])

/-- The exception handler of a capture: a business denial keeps the reservation. -/
def captureHandler (target : Uuid) (e : PgError) : Proc Json :=
  if e.code ≠ "P1601" ∧ e.constraint ∉ captureDenials then Txn.raise e
  else pure (deniedResponse target "capture_policy_denied")

/-- The capture of a hold. -/
def captureHold (d : Digest) (sess : Session) (p : HoldDecisionRequest) (h : Hold)
    (clock : DecisionClock) (ids : DecisionIds) : Proc Json :=
  if h.expiresAt ≤ instant clock.now then pure (deniedResponse p.target "expired_capture")
  else Txn.attempt (captureBlock d sess p h clock ids) (captureHandler p.target)

/-- The audit event of a capture that left the hold active. -/
def auditDenial (sess : Session) (p : HoldDecisionRequest) (result : Json) (clock : DecisionClock)
    (ids : DecisionIds) : Proc Unit :=
  match result.text? "rejection_code" with
  | none => pure ()
  | some code => controlledAppendAuditV1 sess {
      id := ids.deniedAudit
      tenantId := p.tenant
      actorSubjectId := some p.actor
      eventType := "hold.capture_denied"
      targetType := "hold"
      targetId := some p.target.text
      outcome := "failed"
      correlationId := p.correlation
      metadata := .obj [("reason", .str code)]
      occurredAt := instant clock.denied }

/-- The release of a hold. -/
def releaseHold (sess : Session) (p : HoldDecisionRequest) (h : Hold) (clock : DecisionClock)
    (ids : DecisionIds) : Proc Json := do
  moveAvailable h.debitAccountId h.amount (instant clock.now)
  finishHold h .released (instant clock.now) none
  let version ← holdRecordChangeV1 sess p.tenant p.actor p.target p.correlation .released true
    ids.change clock.change
  pure (.obj [("id", .str p.target.text), ("state", .str "released"), ("replayed", .bool false),
    ("source_balance_version", .str version.text)])

/-- The branch that a decision takes. -/
def applyDecision (d : Digest) (sess : Session) (p : HoldDecisionRequest) (h : Hold)
    (clock : DecisionClock) (ids : DecisionIds) : Proc Json :=
  match p.decision with
  | .release => releaseHold sess p h clock ids
  | .capture => do
    let result ← captureHold d sess p h clock ids
    auditDenial sess p result clock ids
    pure result

/-- The expiry job of a hold that has ended is done. -/
def closeJob (target : Uuid) (result : Json) : Proc Unit := do
  let s ← Txn.get
  Txn.set { s with
    holdJobs := if result.text? "state" = some "active" then s.holdJobs
      else s.holdJobs.update target fun j => { j with done := true } }

/-- A decision on a hold that was not decided under its key before. -/
def decideHold (d : Digest) (sess : Session) (p : HoldDecisionRequest) (clock : DecisionClock)
    (ids : DecisionIds) : Proc Json := do
  let s ← Txn.get
  let h ← Txn.orRaise ((s.holds.find? p.target).filter (·.tenantId = p.tenant))
    ⟨"P0002", "", "hold not found"⟩
  Txn.raiseIf (¬s.settings.OwnsDebit p.tenant h.debitAccountId p.actor)
    ⟨"42501", "", "hold decision denied"⟩
  Txn.raiseIf (h.state ≠ .active) ⟨"23505", "hold_terminal_conflict", "hold already terminal"⟩
  let result ← applyDecision d sess p h clock ids
  closeJob p.target result
  holdCommandStoreV1 p.tenant p.actor p.decision.text p.key (p.fingerprint d) result

/-- `controlled_decide_hold_v1`. -/
def controlledDecideHoldV1 (d : Digest) (sess : Session) (p : HoldDecisionRequest)
    (clock : DecisionClock) (ids : DecisionIds) : Proc Json := do
  let previous ← holdCommandExistingV1 sess p.tenant p.actor p.decision.text p.key (p.fingerprint d)
  match previous with
  | some response => pure response
  | none => decideHold d sess p clock ids

/-! ## Expiry -/

/-- The arguments of `controlled_claim_hold_expiry_v1`, with the clock readings of its select and
of its update, and the jobs that other transactions hold locked. -/
structure ExpiryClaim where
  batch : ℤ
  owner : String
  leaseSeconds : ℤ
  selectAt : Timestamp
  claimAt : Timestamp
  locked : List Uuid

/-- `btrim(s)`. -/
def trimBlanks (s : List Char) : List Char :=
  (((s.dropWhile (· = ' ')).reverse.dropWhile (· = ' ')).reverse)

/-- The job may be claimed. -/
def ExpiryClaim.Candidate (p : ExpiryClaim) (j : HoldJob) : Prop :=
  j.done = false ∧ j.expiresAt ≤ instant p.selectAt ∧
    (∀ u, j.claimedUntil = some u → u ≤ instant p.selectAt) ∧ j.holdId ∉ p.locked

/-- Whether a job can be claimed can be decided. -/
instance (p : ExpiryClaim) (j : HoldJob) : Decidable (p.Candidate j) :=
  inferInstanceAs (Decidable (_ ∧ _ ∧ (∀ u, _ = some u → _) ∧ _))

/-- The order of the queue: by expiry, and then by hold. -/
def HoldJob.before (x y : HoldJob) : Bool :=
  x.expiresAt < y.expiresAt ∨ (x.expiresAt = y.expiresAt ∧ x.holdId.toNat ≤ y.holdId.toNat)

/-- The holds whose jobs a claim takes. -/
def ExpiryClaim.selected (p : ExpiryClaim) (s : Db) : List Uuid :=
  (((s.holdJobs.rows.filter p.Candidate).mergeSort HoldJob.before).take p.batch.toNat).map
    HoldJob.holdId

/-- A job under a new claim. -/
def HoldJob.claim (j : HoldJob) (owner : String) (until' : Instant) : HoldJob :=
  { j with
    claimOwner := some owner
    claimGeneration := j.claimGeneration + 1
    claimedUntil := some until' }

/-- `controlled_claim_hold_expiry_v1`: the claimed holds. -/
def controlledClaimHoldExpiryV1 (p : ExpiryClaim) : Proc (List Uuid) := do
  Txn.raiseIf (p.batch < 1 ∨ 100 < p.batch ∨ (trimBlanks p.owner.toList).length < 1 ∨
      256 < (trimBlanks p.owner.toList).length ∨ p.leaseSeconds < 1 ∨ 600 < p.leaseSeconds)
    ⟨"22023", "", "invalid expiry claim"⟩
  let s ← Txn.get
  let selected := p.selected s
  Txn.raiseIf (∃ j ∈ s.holdJobs.rows, j.holdId ∈ selected ∧ ¬Bigint.Fits (j.claimGeneration + 1))
    outOfRange
  Txn.set { s with
    holdJobs := s.holdJobs.mapRows (fun j => if j.holdId ∈ selected then
      j.claim p.owner (instant p.claimAt + p.leaseSeconds * 1000000) else j)
      (by intro j; split_ifs <;> rfl) }
  pure selected

/-- The arguments of `controlled_expire_hold_v1`. -/
structure ExpiryRequest where
  tenant : Uuid
  target : Uuid
  owner : String
  generation : ℤ

/-- The clock readings of an expiry. -/
structure ExpiryClock where
  lease : Timestamp
  due : Timestamp
  balance : Timestamp
  completed : Timestamp
  change : ChangeClock

/-- The actor of the background worker. -/
def holdExpiryActor : String := "system:hold-expiry"

/-- The job is under the caller's claim, and the lease has not lapsed. -/
def HoldJob.HeldBy (j : HoldJob) (p : ExpiryRequest) (now : Instant) : Prop :=
  j.tenantId = p.tenant ∧ j.claimOwner = some p.owner ∧ j.claimGeneration = p.generation ∧
    ∃ u, j.claimedUntil = some u ∧ now < u

/-- Whether a job is held for a request can be decided. -/
instance (j : HoldJob) (p : ExpiryRequest) (now : Instant) : Decidable (j.HeldBy p now) :=
  inferInstanceAs (Decidable (_ ∧ _ ∧ _ ∧ ∃ u, _ = some u ∧ _))

/-- The expiry of a hold that is due. -/
def expireHold (sess : Session) (p : ExpiryRequest) (h : Hold) (clock : ExpiryClock)
    (correlation : Uuid) (ids : ChangeIds) : Proc Bool := do
  Txn.raiseIf (instant clock.due < h.expiresAt) ⟨"55000", "", "hold is not due"⟩
  moveAvailable h.debitAccountId h.amount (instant clock.balance)
  finishHold h .expired (instant clock.completed) none
  let _ ← holdRecordChangeV1 sess p.tenant holdExpiryActor p.target correlation .expired true ids
    clock.change
  let s ← Txn.get
  Txn.set { s with holdJobs := s.holdJobs.update p.target fun j => { j with done := true } }
  pure true

/-- `controlled_expire_hold_v1`: whether the call expired the hold. -/
def controlledExpireHoldV1 (sess : Session) (p : ExpiryRequest) (clock : ExpiryClock)
    (correlation : Uuid) (ids : ChangeIds) : Proc Bool := do
  Txn.raiseIf (¬sess.Allows p.tenant ∨ sess.actorId ≠ holdExpiryActor)
    ⟨"42501", "", "expiry scope denied"⟩
  let s ← Txn.get
  let h ← Txn.orRaise ((s.holds.find? p.target).filter (·.tenantId = p.tenant))
    ⟨"P0002", "", "hold not found"⟩
  let j ← Txn.orRaise ((s.holdJobs.find? p.target).filter (·.HeldBy p (instant clock.lease)))
    ⟨"55000", "", "stale expiry claim"⟩
  if j.done = true ∨ h.state ≠ .active then pure false
  else expireHold sess p h clock correlation ids

/-! ## What a returning call did -/

/-- The available amount of an account changed by `delta`. -/
structure AvailableMoved (account : Uuid) (delta : ℤ) (now : Instant) (t t' : Table Balance.accountId)
    (b b' : Balance) : Prop where
  find : t.find? account = some b
  written : b.Written b' (b.available + delta) b.ledger (b.version + 1) now
  result : t' = t.replace b'

/-- Moving what is available changes one balance, or nothing when the account has none. -/
theorem moveAvailable_ok {account : Uuid} {delta : ℤ} {now : Instant} {s s' : Db} {u : Unit}
    (h : moveAvailable account delta now s = .ok (u, s')) :
    (s.balances.find? account = none ∧ s' = s) ∨
      ∃ b b', AvailableMoved account delta now s.balances s'.balances b b' ∧
        s' = { s with balances := s'.balances } := by
  simp only [moveAvailable, Txn.get_bind_ok] at h
  rcases hfind : s.balances.find? account with _ | b
  · simp only [hfind, Txn.pure_ok] at h
    exact .inl ⟨rfl, h.2.symm⟩
  · simp only [hfind] at h
    obtain ⟨b', _, hwrite, h⟩ := Txn.bind_ok.mp h
    obtain ⟨hw, rfl⟩ := writeBalance_ok hwrite
    obtain ⟨-, rfl⟩ := Txn.pure_ok.mp h
    exact .inr ⟨b, b', ⟨hfind, hw, rfl⟩, rfl⟩

/-- The evidence of a state change, as it was recorded. -/
structure ChangeRecorded (t : Uuid) (a : String) (h c : Uuid) (newState : HoldState) (emit : Bool)
    (ids : ChangeIds) (clock : ChangeClock) (s s' : Db) (version : Bigint) where
  hold : Hold
  balance : Balance
  hold_find : s.holds.find? h = some hold
  hold_tenant : hold.tenantId = t
  balance_find : s.balances.find? hold.debitAccountId = some balance
  version_eq : version = balance.version
  first : ¬∃ x ∈ s.holdEvents.rows, x.holdId = h ∧ x.state = newState
  holdEvents : s.holdEvents.insert? ⟨ids.holdEvent, t, h, newState, a, c, balance.version⟩ =
    some s'.holdEvents
  outbox : if emit = true then s.outbox.insert? (holdBalanceEvent t hold balance ids clock) =
    some s'.outbox else s'.outbox = s.outbox
  frame : s' = { s with holdEvents := s'.holdEvents, outbox := s'.outbox, audit := s'.audit }

/-- An event that already carries both amounts is stored as it is. -/
theorem enrich_of_ne {s : Db} {e : OutboxEvent} (h : e.eventType ≠ balanceChangedV1) :
    enrichReservedBalanceEventV1 s e = some e := by
  unfold enrichReservedBalanceEventV1
  split
  · rfl
  · rw [if_neg h]

/-- A change of a hold is recorded with its version, its events and its audit event. -/
theorem holdRecordChangeV1_ok {sess : Session} {t : Uuid} {a : String} {h c : Uuid}
    {newState : HoldState} {emit : Bool} {ids : ChangeIds} {clock : ChangeClock} {s s' : Db}
    {version : Bigint}
    (hret : holdRecordChangeV1 sess t a h c newState emit ids clock s = .ok (version, s')) :
    Nonempty (ChangeRecorded t a h c newState emit ids clock s s' version) := by
  simp only [holdRecordChangeV1, insertHoldEvent, Txn.bind_assoc, Txn.get_bind_ok,
    Txn.orRaise_bind_ok, Txn.raiseIf_bind_ok, insertRow_bind_ok, Option.filter_eq_some_iff,
    decide_eq_true_eq] at hret
  obtain ⟨hold, ⟨hfind, htenant⟩, b, hb, hfirst, holdEvents, hins, hret⟩ := hret
  obtain ⟨_, _, haudit, hret⟩ := Txn.bind_ok.mp hret
  obtain ⟨audit, -, rfl⟩ := controlledAppendAuditV1_ok haudit
  obtain ⟨_, _, hemit, hret⟩ := Txn.bind_ok.mp hret
  obtain ⟨rfl, rfl⟩ := Txn.pure_ok.mp hret
  -- The event of the balance is written only where the change asks for it.
  cases emit with
  | false =>
    simp only [emitHoldBalance, Bool.false_eq_true, if_false, Txn.pure_ok] at hemit
    obtain ⟨-, rfl⟩ := hemit
    exact ⟨⟨hold, b, hfind, htenant, hb, rfl, hfirst, hins, rfl, rfl⟩⟩
  | true =>
    simp only [emitHoldBalance, if_true, insertOutbox_ok] at hemit
    obtain ⟨e', he', -, outbox, hout, rfl⟩ := hemit
    rw [enrich_of_ne (show balanceChangedV2 ≠ balanceChangedV1 by decide), Option.some.injEq] at he'
    subst he'
    exact ⟨⟨hold, b, hfind, htenant, hb, rfl, hfirst, hins, hout, rfl⟩⟩

/-- A hold is finished once, and as captured exactly with a transfer. -/
theorem finishHold_ok {h : Hold} {state : HoldState} {now : Instant} {transfer : Option Uuid}
    {s s' : Db} {u : Unit} : finishHold h state now transfer s = .ok (u, s') ↔
      (h.state = .active ∧ state ≠ .active) ∧ (state = .captured ↔ transfer ≠ none) ∧
        { s with holds := s.holds.replace (h.finish state now transfer) } = s' := by
  simp only [finishHold, Txn.raiseIf_bind_ok, Txn.get_bind_ok, Txn.set_ok, not_or, not_not, ne_eq]

/-- The response of a command that was given before. -/
theorem holdCommandExistingV1_ok {sess : Session} {t : Uuid} {a op k : String} {fp : Bytes}
    {s s' : Db} {r : Option Json} (h : holdCommandExistingV1 sess t a op k fp s = .ok (r, s')) :
    s = s' ∧ sess.Allows t ∧ a = sess.actorId ∧ IsKey k ∧
      s.settings.HasRole t a [.operator, .finance] ∧
      r = (s.holdCommands.find? (t, a, op, k)).map fun c =>
        c.response.merge (.obj [("replayed", .bool true)]) := by
  simp only [holdCommandExistingV1, Txn.raiseIf_bind_ok, Txn.get_bind_ok, Txn.pure_ok, not_or,
    not_not, ne_eq] at h
  obtain ⟨⟨hscope, hactor⟩, ⟨-, hkey, -⟩, hrole, -, hr, hs⟩ := h
  exact ⟨hs, hscope, hactor, hkey, hrole, hr.symm⟩

/-- A call that created a hold. -/
structure HoldCreated (p : HoldRequest) (clock : HoldClock) (id : Uuid) (ids : ChangeIds)
    (s s' : Db) where
  hold : Hold
  expires : Timestamp
  /-- The source balance before and after. -/
  balance : Balance
  balance' : Balance
  wellFormed : p.WellFormed
  hold_eq : activeHold? p id clock.now expires = some hold
  customer : ∃ a, s.account? p.tenant p.source = some (a, balance) ∧ a.kind = .customer ∧
    a.currency = p.currency
  destination : ∃ a, s.accounts.find? p.destination = some a ∧ a.tenantId = p.tenant ∧
    a.currency = p.currency ∧ a.kind = .customer
  covered : (p.amount : ℤ) ≤ balance.available
  holds : s.holds.insert? hold = some s'.holds
  moved : AvailableMoved p.source (-p.amount) (instant clock.now) s.balances s'.balances balance
    balance'
  holdJobs : s.holdJobs.insert? (expiryJob hold) = some s'.holdJobs
  first : ¬∃ x ∈ s.holdEvents.rows, x.holdId = id ∧ x.state = .active
  holdEvents : s.holdEvents.insert? ⟨ids.holdEvent, p.tenant, id, .active, p.actor, p.correlation,
    balance'.version⟩ = some s'.holdEvents
  outbox : s.outbox.insert? (holdBalanceEvent p.tenant hold balance' ids clock.change) =
    some s'.outbox
  frame : s' = { s with
    holds := s'.holds, balances := s'.balances, holdJobs := s'.holdJobs
    holdEvents := s'.holdEvents, outbox := s'.outbox, audit := s'.audit
    holdCommands := s'.holdCommands }

/-- A call that gave the reserved amount of a hold back: a release or an expiry. -/
structure HoldReturned (target : Uuid) (tenant : Uuid) (state : HoldState) (now completed : Instant)
    (ids : ChangeIds) (clock : ChangeClock) (s s' : Db) where
  hold : Hold
  balance : Balance
  balance' : Balance
  find : s.holds.find? target = some hold
  hold_tenant : hold.tenantId = tenant
  active : hold.state = .active
  moved : AvailableMoved hold.debitAccountId hold.amount now s.balances s'.balances balance balance'
  holds : s'.holds = s.holds.replace (hold.finish state completed none)
  holdJobs : s'.holdJobs = s.holdJobs.update target fun j => { j with done := true }
  first : ¬∃ x ∈ s.holdEvents.rows, x.holdId = target ∧ x.state = state
  holdEvents : ∃ a c, s.holdEvents.insert? ⟨ids.holdEvent, tenant, target, state, a, c,
    balance'.version⟩ = some s'.holdEvents
  outbox : s.outbox.insert? (holdBalanceEvent tenant hold balance' ids clock) = some s'.outbox
  frame : s' = { s with
    holds := s'.holds, balances := s'.balances, holdJobs := s'.holdJobs
    holdEvents := s'.holdEvents, outbox := s'.outbox, audit := s'.audit
    holdCommands := s'.holdCommands }

/-- A call that captured a hold. -/
structure HoldCaptured (d : Digest) (p : HoldDecisionRequest) (clock : DecisionClock)
    (ids : DecisionIds) (s s' : Db) where
  hold : Hold
  /-- The source balance before the private release and after it. -/
  balance : Balance
  freed : Balance
  body : Json
  /-- The database after the transfer. -/
  mid : Db
  decision : p.decision = .capture
  find : s.holds.find? p.target = some hold
  hold_tenant : hold.tenantId = p.tenant
  active : hold.state = .active
  unexpired : instant clock.now < hold.expiresAt
  balance_find : s.balances.find? hold.debitAccountId = some balance
  freed_written : balance.Written freed (balance.available + hold.amount) balance.ledger
    balance.version balance.updatedAt
  posted : PostedTransfer (captureTransfer d p hold clock.now) ids.transfer
    { s with balances := s.balances.replace freed } mid body
  holds : s'.holds =
    s.holds.replace (hold.finish .captured (instant clock.now) (some ids.transfer.transfer))
  holdJobs : s'.holdJobs = s.holdJobs.update p.target fun j => { j with done := true }
  first : ¬∃ x ∈ s.holdEvents.rows, x.holdId = p.target ∧ x.state = .captured
  holdEvents : ∃ v, s.holdEvents.insert? ⟨ids.change.holdEvent, p.tenant, p.target, .captured,
    p.actor, p.correlation, v⟩ = some s'.holdEvents
  frame : s' = { mid with
    holds := s'.holds, holdJobs := s'.holdJobs, holdEvents := s'.holdEvents, audit := s'.audit
    holdCommands := s'.holdCommands }

/-- A hold that is made is active and has the terms of its request. -/
theorem activeHold?_eq_some {p : HoldRequest} {id : Uuid} {now expires : Timestamp} {h : Hold}
    (he : activeHold? p id now expires = some h) :
    h.id = id ∧ h.tenantId = p.tenant ∧ h.debitAccountId = p.source ∧
      h.creditAccountId = p.destination ∧ h.amount = p.amount ∧ h.currency = p.currency ∧
      h.state = .active ∧ h.expiresAt = instant expires := by
  unfold activeHold? at he
  split_ifs at he
  cases he
  exact ⟨rfl, rfl, rfl, rfl, rfl, rfl, rfl, rfl⟩

/-- The checks of a request: both accounts are of customers of the tenant and the currency, and the
amount is available. -/
theorem checkHoldRequest_ok {p : HoldRequest} {s s' : Db} {u : Unit}
    (h : checkHoldRequest p s = .ok (u, s')) : s = s' ∧
      (∃ a, s.accounts.find? p.destination = some a ∧ a.tenantId = p.tenant ∧
        a.currency = p.currency ∧ a.kind = .customer) ∧
      ∃ a b, s.account? p.tenant p.source = some (a, b) ∧ a.kind = .customer ∧
        a.currency = p.currency ∧ (p.amount : ℤ) ≤ b.available := by
  simp only [checkHoldRequest, Txn.get_bind_ok, Txn.orRaise_bind_ok, Txn.raiseIf_bind_ok,
    Txn.raiseIf_ok, Option.filter_eq_some_iff, decide_eq_true_eq, not_lt, not_or, not_not] at h
  obtain ⟨⟨a, b⟩, ⟨hfind, hkind, hcur, -, -⟩, ⟨-, a', ha', htenant', -, hcur', hkind'⟩, -, -,
    hcovered, hs⟩ := h
  exact ⟨hs, ⟨a', ha', htenant', hcur', hkind'⟩, a, b, hfind, hkind, hcur, hcovered⟩

/-- A creation either repeated an earlier one or added a hold. -/
theorem controlledCreateHoldV1_ok {d : Digest} {sess : Session} {p : HoldRequest}
    {clock : HoldClock} {id : Uuid} {ids : ChangeIds} {s s' : Db} {r : Json}
    (h : controlledCreateHoldV1 d sess p clock id ids s = .ok (r, s')) :
    s' = s ∨ Nonempty (HoldCreated p clock id ids s s') := by
  simp only [controlledCreateHoldV1, Txn.raiseIf_bind_ok, not_not] at h
  obtain ⟨hwell, h⟩ := h
  obtain ⟨previous, _, hexisting, h⟩ := Txn.bind_ok.mp h
  obtain ⟨rfl, -⟩ := holdCommandExistingV1_ok hexisting
  rcases previous with _ | response
  · simp only [storeHold] at h
    obtain ⟨_, _, hcheck, h⟩ := Txn.bind_ok.mp h
    obtain ⟨rfl, hdestination, a, b₀, hfind, hkind, hcur, hcovered⟩ := checkHoldRequest_ok hcheck
    simp only [Txn.orRaise_bind_ok, insertRow_bind_ok] at h
    obtain ⟨expires, -, hold, hhold, holds, hins, h⟩ := h
    obtain ⟨hid, -, hdebit, -⟩ := activeHold?_eq_some hhold
    obtain ⟨_, s₁, hmove, h⟩ := Txn.bind_ok.mp h
    have hb₀ : s.balances.find? p.source = some b₀ := (Db.account?_eq_some.mp hfind).2.1
    rcases moveAvailable_ok hmove with ⟨hnone, -⟩ | ⟨b, b', ⟨hb, hwritten, hresult⟩, hframe⟩
    · rw [show s.balances.find? p.source = none from hnone] at hb₀
      cases hb₀
    obtain rfl : b = b₀ := Option.some.inj (hb.symm.trans hb₀)
    rw [hresult] at hframe
    clear hresult hmove
    subst hframe
    rw [insertRow_bind_ok] at h
    obtain ⟨holdJobs, hjobs, h⟩ := h
    obtain ⟨version, s₂, hrecord, h⟩ := Txn.bind_ok.mp h
    obtain ⟨⟨hold', balance, hfound, -, hbalance, -, hfirst, hevents, houtbox, hrec⟩⟩ :=
      holdRecordChangeV1_ok hrecord
    simp only [holdCommandStoreV1, insertRow_bind_ok, Txn.pure_ok] at h
    obtain ⟨commands, -, -, rfl⟩ := h
    -- The evidence names the new hold and the balance after the reservation.
    obtain rfl : hold = hold' := by
      have hnew : holds.find? id = some hold := by
        rw [Table.find?_insert? hins, if_pos hid.symm]
      exact Option.some.inj (hnew.symm.trans hfound)
    obtain rfl : b' = balance := by
      rw [hdebit] at hbalance
      exact Option.some.inj ((hwritten.find?_replace hb).symm.trans hbalance)
    exact .inr ⟨{
      hold := hold, expires := expires, balance := b, balance' := b'
      wellFormed := hwell
      hold_eq := hhold
      customer := ⟨a, hfind, hkind, hcur⟩
      destination := hdestination
      covered := hcovered
      holds := by rw [hrec]; exact hins
      moved := by rw [hrec]; exact ⟨hb, hwritten, rfl⟩
      holdJobs := by rw [hrec]; exact hjobs
      first := hfirst
      holdEvents := hevents
      outbox := houtbox
      frame := by rw [hrec] }⟩
  · exact .inl (Txn.pure_ok.mp h).2.symm

/-- The private release of a capture. -/
theorem releaseForCapture_ok {h : Hold} {s s' : Db} {u : Unit}
    (hret : releaseForCapture h s = .ok (u, s')) :
    (s.balances.find? h.debitAccountId = none ∧ s' = s) ∨
      ∃ b b', s.balances.find? h.debitAccountId = some b ∧
        b.Written b' (b.available + h.amount) b.ledger b.version b.updatedAt ∧
        s' = { s with balances := s.balances.replace b' } := by
  simp only [releaseForCapture, Txn.get_bind_ok] at hret
  rcases hfind : s.balances.find? h.debitAccountId with _ | b
  · simp only [hfind, Txn.pure_ok] at hret
    exact .inl ⟨rfl, hret.2.symm⟩
  · simp only [hfind] at hret
    obtain ⟨b', _, hwrite, hret⟩ := Txn.bind_ok.mp hret
    obtain ⟨hw, rfl⟩ := writeBalance_ok hwrite
    obtain ⟨-, rfl⟩ := Txn.pure_ok.mp hret
    exact .inr ⟨b, b', rfl, hw, rfl⟩

/-- The fields of the two responses that a capture reads. -/
theorem postedBody_text (p : TransferRequest) (ids : TransferIds) (b : Balance) :
    (postedBody p ids b).text? "status" = some "posted" ∧
      (postedBody p ids b).text? "transfer_id" = some ids.transfer.text := by
  constructor <;> simp [postedBody, Json.text?, Json.get?, List.lookup, Json.scalarText?]

/-- The body of a rejected transfer says so. -/
theorem rejectedBody_text (p : TransferRequest) (ids : TransferIds) :
    (rejectedBody p ids).text? "status" = some "rejected" := by
  simp [rejectedBody, Json.text?, Json.get?, List.lookup, Json.scalarText?]

/-- The guarded block of a capture returns only when its transfer was posted. -/
theorem captureBlock_ok {d : Digest} {sess : Session} {p : HoldDecisionRequest} {h : Hold}
    {clock : DecisionClock} {ids : DecisionIds} {s s' : Db} {r : Json}
    (hret : captureBlock d sess p h clock ids s = .ok (r, s')) :
    r.text? "state" = some "captured" ∧ r.text? "rejection_code" = none ∧
    ∃ b freed body mid v,
      s.balances.find? h.debitAccountId = some b ∧
      b.Written freed (b.available + h.amount) b.ledger b.version b.updatedAt ∧
      Guarded d sess (captureTransfer d p h clock.now) s ∧
      Nonempty (PostedTransfer (captureTransfer d p h clock.now) ids.transfer
        { s with balances := s.balances.replace freed } mid body) ∧
      h.state = .active ∧
      (¬∃ x ∈ mid.holdEvents.rows, x.holdId = p.target ∧ x.state = .captured) ∧
      mid.holdEvents.insert? ⟨ids.change.holdEvent, p.tenant, p.target, .captured, p.actor,
        p.correlation, v⟩ = some s'.holdEvents ∧
      s' = { mid with
        holds := mid.holds.replace
          (h.finish .captured (instant clock.now) (some ids.transfer.transfer))
        holdEvents := s'.holdEvents, audit := s'.audit } := by
  simp only [captureBlock] at hret
  obtain ⟨_, s₁, hrelease, hret⟩ := Txn.bind_ok.mp hret
  obtain ⟨⟨body, replayed⟩, mid, hsubmit, hret⟩ := Txn.bind_ok.mp hret
  simp only [Txn.raiseIf_bind_ok, not_or, Bool.not_eq_true] at hret
  obtain ⟨⟨hstatus, rfl⟩, hret⟩ := hret
  obtain ⟨_, s₂, hfinish, hret⟩ := Txn.bind_ok.mp hret
  obtain ⟨⟨hactive, -⟩, -, rfl⟩ := finishHold_ok.mp hfinish
  obtain ⟨version, s₃, hrecord, hret⟩ := Txn.bind_ok.mp hret
  obtain ⟨rfl, rfl⟩ := Txn.pure_ok.mp hret
  obtain ⟨⟨_, balance, -, -, -, -, hfirst, hevents, houtbox, hrec⟩⟩ := holdRecordChangeV1_ok hrecord
  obtain ⟨hguard, ⟨hreplayed, -⟩ | ⟨-, ⟨⟨rejected⟩⟩ | ⟨⟨posted⟩⟩⟩⟩ :=
    controlledSubmitTransferV1_ok hsubmit
  -- The transfer is new: it was not replayed.
  · cases hreplayed
  · -- A rejected transfer has another status, and the block would have raised.
    refine absurd ⟨"rejected", ?_, by decide⟩ hstatus
    rw [rejected.body_eq]
    exact rejectedBody_text _ _
  · have hid : (body.text? "transfer_id").bind Uuid.ofText? = some ids.transfer.transfer := by
      rw [posted.body_eq, (postedBody_text _ _ _).2, Option.bind_some, Uuid.ofText?_text]
    refine ⟨?_, ?_, ?_⟩
    · simp [Json.text?, Json.get?, List.lookup, Json.scalarText?]
    · simp [Json.text?, Json.get?, List.lookup]
    rcases releaseForCapture_ok hrelease with ⟨hnone, rfl⟩ | ⟨b, freed, hb, hfreed, rfl⟩
    · -- The transfer found a balance to debit, so there is one to release.
      have hsome := posted.move.source_find
      rw [show (captureTransfer d p h clock.now).debitAccountId = h.debitAccountId from rfl, hnone]
        at hsome
      cases hsome
    · simp only [Bool.false_eq_true, if_false] at houtbox
      refine ⟨b, freed, body, mid, balance.version, hb, hfreed,
        ⟨hguard.scope, hguard.actor, hguard.wellFormed, hguard.fingerprint, hguard.tenant,
          hguard.role⟩, ⟨posted⟩, hactive, hfirst, hevents, ?_⟩
      rw [hid] at hrec
      rw [hrec, houtbox]

/-- The three steps that a release and an expiry share: the amount goes back, the hold ends, and
the change is recorded. -/
theorem returnHold_ok {sess : Session} {hold : Hold} {state : HoldState} {now completed : Instant}
    {tenant target c : Uuid} {a : String} {ids : ChangeIds} {clock : ChangeClock} {s s₁ s₂ s₃ : Db}
    {u u' : Unit} {v : Bigint} (hfind : s.holds.find? target = some hold)
    (hmove : moveAvailable hold.debitAccountId hold.amount now s = .ok (u, s₁))
    (hfinish : finishHold hold state completed none s₁ = .ok (u', s₂))
    (hrecord : holdRecordChangeV1 sess tenant a target c state true ids clock s₂ = .ok (v, s₃)) :
    ∃ b b', AvailableMoved hold.debitAccountId hold.amount now s.balances s₃.balances b b' ∧
      (¬∃ x ∈ s.holdEvents.rows, x.holdId = target ∧ x.state = state) ∧
      s.holdEvents.insert? ⟨ids.holdEvent, tenant, target, state, a, c, b'.version⟩ =
        some s₃.holdEvents ∧
      s.outbox.insert? (holdBalanceEvent tenant hold b' ids clock) = some s₃.outbox ∧
      s₃ = { s with
        holds := s.holds.replace (hold.finish state completed none), balances := s₃.balances
        holdEvents := s₃.holdEvents, outbox := s₃.outbox, audit := s₃.audit } := by
  obtain ⟨-, -, rfl⟩ := finishHold_ok.mp hfinish
  obtain ⟨⟨hold', balance, hfound, -, hbalance, -, hfirst, hevents, houtbox, hrec⟩⟩ :=
    holdRecordChangeV1_ok hrecord
  have hkey := Table.key_of_find? hfind
  subst hkey
  -- The recorded hold is the finished one; it reports the same account and currency.
  have hheld : ∀ t : Table Hold.id, t.find? hold.id = some hold →
      (t.replace (hold.finish state completed none)).find? hold.id =
        some (hold.finish state completed none) :=
    fun t ht => Table.find?_replace_self ht rfl
  rcases moveAvailable_ok hmove with ⟨hnone, rfl⟩ | ⟨b, b', ⟨hb, hwritten, hresult⟩, hframe⟩
  · obtain rfl := Option.some.inj ((hheld _ hfind).symm.trans hfound)
    cases hnone.symm.trans hbalance
  · rw [hresult] at hframe
    clear hresult hmove hfinish hrecord
    subst hframe
    obtain rfl := Option.some.inj ((hheld _ hfind).symm.trans hfound)
    obtain rfl := Option.some.inj ((hwritten.find?_replace hb).symm.trans hbalance)
    exact ⟨b, b', by rw [hrec]; exact ⟨hb, hwritten, rfl⟩, hfirst, hevents, houtbox, by rw [hrec]⟩

/-- What a release did, up to the job and the command that are stored after it. -/
theorem releaseHold_ok {sess : Session} {p : HoldDecisionRequest} {hold : Hold}
    {clock : DecisionClock} {ids : DecisionIds} {s s' : Db} {r : Json}
    (hfind : s.holds.find? p.target = some hold)
    (h : releaseHold sess p hold clock ids s = .ok (r, s')) :
    r.text? "state" = some "released" ∧ ∃ b b',
      AvailableMoved hold.debitAccountId hold.amount (instant clock.now) s.balances s'.balances b b' ∧
      (¬∃ x ∈ s.holdEvents.rows, x.holdId = p.target ∧ x.state = .released) ∧
      s.holdEvents.insert? ⟨ids.change.holdEvent, p.tenant, p.target, .released, p.actor,
        p.correlation, b'.version⟩ = some s'.holdEvents ∧
      s.outbox.insert? (holdBalanceEvent p.tenant hold b' ids.change clock.change) =
        some s'.outbox ∧
      s' = { s with
        holds := s.holds.replace (hold.finish .released (instant clock.now) none)
        balances := s'.balances, holdEvents := s'.holdEvents, outbox := s'.outbox
        audit := s'.audit } := by
  simp only [releaseHold] at h
  obtain ⟨_, s₁, hmove, h⟩ := Txn.bind_ok.mp h
  obtain ⟨_, s₂, hfinish, h⟩ := Txn.bind_ok.mp h
  obtain ⟨version, s₃, hrecord, h⟩ := Txn.bind_ok.mp h
  obtain ⟨rfl, rfl⟩ := Txn.pure_ok.mp h
  refine ⟨?_, returnHold_ok hfind hmove hfinish hrecord⟩
  simp [Json.text?, Json.get?, List.lookup, Json.scalarText?]

/-- A denied capture wrote at most an audit event. -/
theorem auditDenial_ok {sess : Session} {p : HoldDecisionRequest} {result : Json}
    {clock : DecisionClock} {ids : DecisionIds} {s s' : Db} {u : Unit}
    (h : auditDenial sess p result clock ids s = .ok (u, s')) :
    s' = { s with audit := s'.audit } ∧ (result.text? "rejection_code" = none → s' = s) := by
  unfold auditDenial at h
  rcases hcode : result.text? "rejection_code" with _ | code
  · simp only [hcode, Txn.pure_ok] at h
    obtain ⟨-, rfl⟩ := h
    exact ⟨rfl, fun _ => rfl⟩
  · simp only [hcode] at h
    obtain ⟨audit, -, rfl⟩ := controlledAppendAuditV1_ok h
    exact ⟨rfl, fun hnone => by cases hnone⟩

/-- The response of a denied capture shows the hold as active. -/
theorem deniedResponse_text (target : Uuid) (code : String) :
    (deniedResponse target code).text? "state" = some "active" := by
  simp [deniedResponse, Json.text?, Json.get?, List.lookup, Json.scalarText?]

/-- A capture returns from its guarded block, or it was denied and wrote nothing. -/
theorem captureHold_ok {d : Digest} {sess : Session} {p : HoldDecisionRequest} {hold : Hold}
    {clock : DecisionClock} {ids : DecisionIds} {s s' : Db} {r : Json}
    (h : captureHold d sess p hold clock ids s = .ok (r, s')) :
    (r.text? "state" = some "active" ∧ s' = s) ∨
      (instant clock.now < hold.expiresAt ∧ captureBlock d sess p hold clock ids s = .ok (r, s')) := by
  unfold captureHold at h
  split_ifs at h with hexp
  · obtain ⟨rfl, rfl⟩ := Txn.pure_ok.mp h
    exact .inl ⟨deniedResponse_text _ _, rfl⟩
  · rcases Txn.attempt_ok.mp h with h | ⟨e, -, h⟩
    · exact .inr ⟨not_le.mp hexp, h⟩
    · unfold captureHandler at h
      split_ifs at h
      · cases Txn.raise_ok.mp h
      · obtain ⟨rfl, rfl⟩ := Txn.pure_ok.mp h
        exact .inl ⟨deniedResponse_text _ _, rfl⟩

/-- Closing a job changes the jobs only. -/
theorem closeJob_ok {target : Uuid} {result : Json} {s s' : Db} {u : Unit}
    (h : closeJob target result s = .ok (u, s')) :
    s' = { s with
      holdJobs := if result.text? "state" = some "active" then s.holdJobs
        else s.holdJobs.update target fun j => { j with done := true } } := by
  simp only [closeJob, Txn.get_bind_ok, Txn.set_ok] at h
  exact h.symm

/-- Everything that a returning decision can have done: nothing, when it repeats an earlier one; a
release; a capture; or the denial of a capture, which is recorded and changes nothing else. -/
theorem controlledDecideHoldV1_ok {d : Digest} {sess : Session} {p : HoldDecisionRequest}
    {clock : DecisionClock} {ids : DecisionIds} {s s' : Db} {r : Json}
    (h : controlledDecideHoldV1 d sess p clock ids s = .ok (r, s')) :
    s' = s ∨
      Nonempty (HoldReturned p.target p.tenant .released (instant clock.now) (instant clock.now)
        ids.change clock.change s s') ∨
      Nonempty (HoldCaptured d p clock ids s s') ∨
      s' = { s with audit := s'.audit, holdCommands := s'.holdCommands } := by
  simp only [controlledDecideHoldV1] at h
  obtain ⟨previous, _, hexisting, h⟩ := Txn.bind_ok.mp h
  obtain ⟨rfl, -⟩ := holdCommandExistingV1_ok hexisting
  -- A replayed decision changes nothing.
  rcases previous with _ | response
  swap
  · exact .inl (Txn.pure_ok.mp h).2.symm
  refine .inr ?_
  simp only [decideHold, Txn.get_bind_ok, Txn.orRaise_bind_ok, Txn.raiseIf_bind_ok,
    Option.filter_eq_some_iff, decide_eq_true_eq, not_not, ne_eq] at h
  obtain ⟨hold, ⟨hfind, htenant⟩, -, hactive, h⟩ := h
  obtain ⟨result, s₁, hdecision, h⟩ := Txn.bind_ok.mp h
  obtain ⟨_, s₂, hclose, h⟩ := Txn.bind_ok.mp h
  have hjobs := closeJob_ok hclose
  simp only [holdCommandStoreV1, insertRow_bind_ok, Txn.pure_ok] at h
  obtain ⟨commands, -, -, rfl⟩ := h
  unfold applyDecision at hdecision
  -- A capture or a release; the capture may be denied.
  rcases hdec : p.decision with _ | _
  · simp only [hdec] at hdecision
    obtain ⟨r', s₃, hcapture, hdecision⟩ := Txn.bind_ok.mp hdecision
    obtain ⟨_, s₄, haudit, hdecision⟩ := Txn.bind_ok.mp hdecision
    obtain ⟨rfl, rfl⟩ := Txn.pure_ok.mp hdecision
    obtain ⟨haudited, hcode⟩ := auditDenial_ok haudit
    -- A denied capture leaves the hold as it is and writes its audit entry.
    rcases captureHold_ok hcapture with ⟨hstate, rfl⟩ | ⟨hunexpired, hblock⟩
    · rw [hstate, if_pos rfl] at hjobs
      refine .inr (.inr ?_)
      rw [hjobs]
      exact congrArg (fun x : Db => { x with holdCommands := commands }) haudited
    · obtain ⟨hstate, hnone, b, freed, body, mid, v, hb, hfreed, -, ⟨posted⟩, -, hfirst, hevents,
        hframe⟩ := captureBlock_ok hblock
      obtain rfl := hcode hnone
      -- A capture that went through closes the job of the hold.
      rw [hstate, if_neg (by decide)] at hjobs
      refine .inr (.inl ⟨{
        hold := hold, balance := b, freed := freed, body := body, mid := mid
        decision := hdec
        find := hfind
        hold_tenant := htenant
        active := hactive
        unexpired := hunexpired
        balance_find := hb
        freed_written := hfreed
        posted := posted
        holds := ?_
        holdJobs := ?_
        first := ?_
        holdEvents := ⟨v, ?_⟩
        frame := ?_ }⟩)
      · rw [hjobs, hframe, posted.frame]
      · rw [hjobs, hframe, posted.frame]
      · rw [posted.frame] at hfirst
        exact hfirst
      · rw [posted.frame] at hevents
        rw [hjobs]
        exact hevents
      · rw [hjobs, hframe]
  · simp only [hdec] at hdecision
    obtain ⟨hstate, b, b', hmoved, hfirst, hevents, houtbox, hframe⟩ := releaseHold_ok hfind hdecision
    rw [hstate, if_neg (by decide)] at hjobs
    exact .inl ⟨{
      hold := hold, balance := b, balance' := b'
      find := hfind
      hold_tenant := htenant
      active := hactive
      moved := by rw [hjobs]; exact hmoved
      holds := by rw [hjobs, hframe]
      holdJobs := by rw [hjobs, hframe]
      first := hfirst
      holdEvents := ⟨_, _, by rw [hjobs]; exact hevents⟩
      outbox := by rw [hjobs]; exact houtbox
      frame := by rw [hjobs, hframe] }⟩

/-- An expiry either found the hold ended already, or gave its amount back. In both cases it held
the claim. -/
theorem controlledExpireHoldV1_ok {sess : Session} {p : ExpiryRequest} {clock : ExpiryClock}
    {correlation : Uuid} {ids : ChangeIds} {s s' : Db} {r : Bool}
    (h : controlledExpireHoldV1 sess p clock correlation ids s = .ok (r, s')) :
    (∃ j, s.holdJobs.find? p.target = some j ∧ j.HeldBy p (instant clock.lease)) ∧
      (s' = s ∨ Nonempty (HoldReturned p.target p.tenant .expired (instant clock.balance)
        (instant clock.completed) ids clock.change s s')) := by
  simp only [controlledExpireHoldV1, Txn.raiseIf_bind_ok, Txn.get_bind_ok, Txn.orRaise_bind_ok,
    Option.filter_eq_some_iff, decide_eq_true_eq] at h
  obtain ⟨-, hold, ⟨hfind, htenant⟩, j, hj, h⟩ := h
  refine ⟨⟨j, hj⟩, ?_⟩
  -- A hold that ended meanwhile is left alone.
  split_ifs at h with hended
  · exact .inl (Txn.pure_ok.mp h).2.symm
  · refine .inr ?_
    simp only [expireHold, Txn.raiseIf_bind_ok] at h
    obtain ⟨-, h⟩ := h
    obtain ⟨_, s₁, hmove, h⟩ := Txn.bind_ok.mp h
    obtain ⟨_, s₂, hfinish, h⟩ := Txn.bind_ok.mp h
    obtain ⟨version, s₃, hrecord, h⟩ := Txn.bind_ok.mp h
    simp only [Txn.get_bind_ok, Txn.set_bind_ok, Txn.pure_ok] at h
    obtain ⟨-, rfl⟩ := h
    obtain ⟨b, b', hmoved, hfirst, hevents, houtbox, hframe⟩ :=
      returnHold_ok hfind hmove hfinish hrecord
    exact ⟨{
      hold := hold, balance := b, balance' := b'
      find := hfind
      hold_tenant := htenant
      active := by simpa using (not_or.mp hended).2
      moved := hmoved
      holds := by rw [hframe]
      holdJobs := by rw [hframe]
      first := hfirst
      holdEvents := ⟨_, _, hevents⟩
      outbox := houtbox
      frame := by rw [hframe] }⟩

/-- A claim writes the claims of the jobs that it takes, and nothing else. -/
theorem controlledClaimHoldExpiryV1_ok {p : ExpiryClaim} {s s' : Db} {r : List Uuid}
    (h : controlledClaimHoldExpiryV1 p s = .ok (r, s')) :
    r = p.selected s ∧ s'.holdJobs.rows = s.holdJobs.rows.map (fun j =>
      if j.holdId ∈ p.selected s then
        j.claim p.owner (instant p.claimAt + p.leaseSeconds * 1000000) else j) ∧
      s' = { s with holdJobs := s'.holdJobs } := by
  simp only [controlledClaimHoldExpiryV1, Txn.raiseIf_bind_ok, Txn.get_bind_ok, Txn.set_bind_ok,
    Txn.pure_ok] at h
  obtain ⟨-, -, rfl, rfl⟩ := h
  exact ⟨rfl, rfl, rfl⟩

end LedgerSync
