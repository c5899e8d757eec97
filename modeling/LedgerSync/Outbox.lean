import LedgerSync.Statements

/-!
# Publication of outbox events

Any number of workers claim outbox events, publish them and complete their claims; operators reopen
dead events; components stamp what they do with logical clocks. A claim has an owner and a
generation, and lapses by itself when its time is over, so a worker may go on with a claim that is
no longer its own. The procedures read the clock by themselves, so every call carries its clock
readings, and nothing is assumed of their order.

The delivery columns of `outbox_events` are modelled here apart from the columns that the ledger
writes, and the audit events of a recovery are left out. The two checks of the table on these
columns, that an event is not published and dead and that a claim has an owner exactly when it has
an end, are not modelled: no call breaks them (`Fenced`).
-/

namespace LedgerSync

open Lib

/-! ## Tables -/

/-- `outbox_publication_attempts.status`. -/
inductive AttemptStatus where
  | claimed
  | published
  | retrying
  | dead
deriving DecidableEq

/-- A row of `outbox_events`, as the queue uses it. -/
structure QueuedEvent where
  id : Uuid
  tenantId : Uuid
  availableAt : Instant
  createdAt : Instant
  attemptCount : ℤ
  publishedAt : Option Instant
  deadAt : Option Instant
  lastErrorCode : Option String
  claimOwner : Option String
  claimedUntil : Option Instant
  claimGeneration : ℤ
  nodeId : Option String
  logicalTimestamp : Option Bigint
  parentReference : Option String
deriving DecidableEq

/-- A row of `outbox_publication_attempts`. -/
structure PublicationAttempt where
  eventId : Uuid
  claimGeneration : ℤ
  workerId : String
  status : AttemptStatus
  startedAt : Instant
  leaseUntil : Instant
  completedAt : Option Instant
  errorCode : Option String
  nodeId : Option String
  receiveCounter : Option Bigint
  sendCounter : Option Bigint
deriving DecidableEq

/-- The primary key of `outbox_publication_attempts`. -/
def PublicationAttempt.key (a : PublicationAttempt) : Uuid × ℤ := (a.eventId, a.claimGeneration)

/-- `outbox_replay_actions.action`. -/
inductive ReplayKind where
  | approved
  | executed
deriving DecidableEq

/-- A row of `outbox_replay_actions`. -/
structure ReplayAction where
  id : Uuid
  tenantId : Uuid
  eventId : Uuid
  action : ReplayKind
  actorSubjectId : String
  reasonCode : String
  correlationId : Uuid
  createdAt : Instant
deriving DecidableEq

/-- A row of `logical_node_clocks`. -/
structure NodeClock where
  nodeId : String
  counter : Bigint
deriving DecidableEq

/-- A row of `logical_message_receipts`. -/
structure MessageReceipt where
  nodeId : String
  receiveCounter : Bigint
  tenantId : Uuid
  eventId : Uuid
  transportId : String
  sender : Option (String × Bigint)
deriving DecidableEq

/-- The primary key of `logical_message_receipts`. -/
def MessageReceipt.key (r : MessageReceipt) : String × Bigint := (r.nodeId, r.receiveCounter)

/-- The tables of the queue. -/
structure QueueDb where
  subjectRoles : List SubjectRole
  events : Table QueuedEvent.id
  attempts : Table PublicationAttempt.key
  replays : Table ReplayAction.id
  clocks : Table NodeClock.nodeId
  receipts : Table MessageReceipt.key

/-- A procedure of the queue. -/
abbrev QueueProc (α : Type) : Type := Txn QueueDb PgError α

/-! ## Logical clocks -/

/-- The counter of a component; a component without a row has not counted yet. -/
def QueueDb.clock (s : QueueDb) (node : String) : ℤ :=
  ((s.clocks.find? node).map fun c => (c.counter : ℤ)).getD 0

/-- `advance_logical_clock`: one more than the counter of the component and the stamp that it
received. -/
def advanceLogicalClock (node : String) (received : ℤ) : QueueProc Bigint := do
  Txn.raiseIf (node.toList.length < 1 ∨ 128 < node.toList.length ∨ received < 0)
    ⟨"22023", "", "invalid logical clock input"⟩
  let s ← Txn.get
  match s.clocks.find? node with
  | none => do
    let counter ← Txn.orRaise (Bigint.ofInt? (received + 1)) outOfRange
    let t ← Txn.orRaise (s.clocks.insert? ⟨node, counter⟩)
      (uniqueViolation "logical_node_clocks_pkey")
    Txn.set { s with clocks := t }
    pure counter
  | some c => do
    let counter ← Txn.orRaise (Bigint.ofInt? (max (c.counter : ℤ) received + 1)) outOfRange
    Txn.set { s with clocks := s.clocks.replace ⟨node, counter⟩ }
    pure counter

/-- What a component stamped: the component, its stamp, and the stamp that came with the message
that it received, if it received one. -/
structure StampedEvent where
  node : String
  stamp : Bigint
  cause : Option (String × Bigint)
deriving DecidableEq

/-! ## New events -/

/-- The components that stamp the events that they insert. -/
def IsComponent (app : String) : Prop :=
  "ledgersync/api/".toList <+: app.toList ∨ "ledgersync/worker/".toList <+: app.toList

/-- Whether a text names a component can be decided. -/
instance (app : String) : Decidable (IsComponent app) := inferInstanceAs (Decidable (_ ∨ _))

/-- A new row of `outbox_events`, as the queue sees it. -/
structure NewEvent where
  id : Uuid
  tenantId : Uuid
  transferId : Option Uuid
  now : Instant

/-- `stamp_outbox_logical_clock`: the node, the stamp and the parent of an event that a component
inserts. Other connections leave them out. -/
def stampOutboxLogicalClock (app : String) (transfer : Option Uuid) :
    QueueProc (Option (String × Bigint × Option String)) :=
  if IsComponent app then do
    let stamp ← advanceLogicalClock app 0
    pure (some (app, stamp, transfer.map fun t => "transfer/" ++ t.text))
  else pure none

/-- The row of a new event. -/
def NewEvent.row (e : NewEvent) (stamped : Option (String × Bigint × Option String)) :
    QueuedEvent where
  id := e.id
  tenantId := e.tenantId
  availableAt := e.now
  createdAt := e.now
  attemptCount := 0
  publishedAt := none
  deadAt := none
  lastErrorCode := none
  claimOwner := none
  claimedUntil := none
  claimGeneration := 0
  nodeId := stamped.map fun x => x.1
  logicalTimestamp := stamped.map fun x => x.2.1
  parentReference := stamped.bind fun x => x.2.2

/-- `INSERT INTO outbox_events`: what the component stamped. -/
def insertQueued (app : String) (e : NewEvent) : QueueProc (List StampedEvent) := do
  let stamped ← stampOutboxLogicalClock app e.transferId
  let s ← Txn.get
  let t ← Txn.orRaise (s.events.insert? (e.row stamped)) (uniqueViolation "outbox_events_pkey")
  Txn.set { s with events := t }
  pure (stamped.toList.map fun x => ⟨x.1, x.2.1, none⟩)

/-! ## Claims -/

/-- The arguments of `controlled_claim_outbox_v1`, with the clock readings for each event, and the
events that other transactions hold locked. The lease is in microseconds. -/
structure OutboxClaim where
  limit : ℤ
  owner : String
  lease : ℤ
  selectAt : Uuid → Instant
  claimAt : Uuid → Instant
  startedAt : Uuid → Instant
  locked : List Uuid

/-- The name of a worker has between 1 and 256 characters without the blanks at its ends. -/
def IsWorker (owner : String) : Prop :=
  let trimmed := ((owner.toList.dropWhile (· = ' ')).reverse.dropWhile (· = ' ')).length
  1 ≤ trimmed ∧ trimmed ≤ 256

/-- Whether a text names a worker can be decided. -/
instance (owner : String) : Decidable (IsWorker owner) := inferInstanceAs (Decidable (_ ∧ _))

/-- The longest lease, 600 seconds. -/
def longestLease : ℤ := 600000000

/-- The event may be claimed. -/
def OutboxClaim.Candidate (p : OutboxClaim) (e : QueuedEvent) : Prop :=
  e.publishedAt = none ∧ e.deadAt = none ∧ e.availableAt ≤ p.selectAt e.id ∧
    (∀ u, e.claimedUntil = some u → u ≤ p.selectAt e.id) ∧ e.id ∉ p.locked

/-- Whether an event can be claimed can be decided. -/
instance OutboxClaim.decidableCandidate (p : OutboxClaim) (e : QueuedEvent) :
    Decidable (p.Candidate e) :=
  inferInstanceAs (Decidable (_ ∧ _ ∧ _ ∧ (∀ u, _ = some u → _) ∧ _))

/-- The order of the queue. -/
def QueuedEvent.before (x y : QueuedEvent) : Bool :=
  x.availableAt < y.availableAt ∨ (x.availableAt = y.availableAt ∧
    (x.createdAt < y.createdAt ∨ (x.createdAt = y.createdAt ∧ x.id.toNat ≤ y.id.toNat)))

/-- The events that a claim takes. -/
def OutboxClaim.selected (p : OutboxClaim) (s : QueueDb) : List QueuedEvent :=
  ((s.events.rows.filter p.Candidate).mergeSort QueuedEvent.before).take p.limit.toNat

/-- An event under a new claim. -/
def QueuedEvent.claim (e : QueuedEvent) (p : OutboxClaim) : QueuedEvent :=
  { e with
    claimOwner := some p.owner
    claimedUntil := some (p.claimAt e.id + p.lease)
    claimGeneration := e.claimGeneration + 1
    attemptCount := e.attemptCount + 1 }

/-- The attempt of a claimed event. -/
def claimedAttempt (p : OutboxClaim) (e : QueuedEvent) : PublicationAttempt where
  eventId := e.id
  claimGeneration := e.claimGeneration + 1
  workerId := p.owner
  status := .claimed
  startedAt := p.startedAt e.id
  leaseUntil := p.claimAt e.id + p.lease
  completedAt := none
  errorCode := none
  nodeId := none
  receiveCounter := none
  sendCounter := none

/-- `controlled_claim_outbox_v1`: the claimed events. -/
def controlledClaimOutboxV1 (p : OutboxClaim) : QueueProc (List QueuedEvent) := do
  Txn.raiseIf (¬IsWorker p.owner ∨ p.limit < 1 ∨ 100 < p.limit ∨ p.lease < 0 ∨
      longestLease < p.lease) ⟨"22023", "", "invalid bounded queue claim"⟩
  let s ← Txn.get
  let selected := p.selected s
  Txn.raiseIf (∃ e ∈ selected, ¬Bigint.Fits (e.claimGeneration + 1) ∨ 2 ^ 31 ≤ e.attemptCount + 1)
    outOfRange
  let attempts ← Txn.orRaise (s.attempts.insertAll? (selected.map (claimedAttempt p)))
    (uniqueViolation "outbox_publication_attempts_pkey")
  Txn.set { s with
    events := s.events.mapRows (fun e => if e ∈ selected then e.claim p else e)
      (by intro e; split_ifs <;> rfl)
    attempts := attempts }
  pure (selected.map fun e => e.claim p)

/-- The fence that a worker presents: the event, its name and the generation of its claim. -/
structure ClaimFence where
  event : Uuid
  owner : String
  generation : ℤ

/-- The event is under the claim of the fence, which has not lapsed at `now`, and it is neither
published nor dead. -/
def QueuedEvent.HeldBy (e : QueuedEvent) (f : ClaimFence) (now : Instant) : Prop :=
  e.claimOwner = some f.owner ∧ e.claimGeneration = f.generation ∧
    (∃ u, e.claimedUntil = some u ∧ now < u) ∧ e.publishedAt = none ∧ e.deadAt = none

/-- Whether an event is held under a fence can be decided. -/
instance QueuedEvent.decidableHeldBy (e : QueuedEvent) (f : ClaimFence) (now : Instant) :
    Decidable (e.HeldBy f now) :=
  inferInstanceAs (Decidable (_ ∧ _ ∧ (∃ u, _ = some u ∧ _) ∧ _ ∧ _))

/-- The event under the live claim of a fence. -/
def QueueDb.held? (s : QueueDb) (f : ClaimFence) (now : Instant) : Option QueuedEvent :=
  (s.events.find? f.event).filter (·.HeldBy f now)

/-- `controlled_claim_tenant_v1` for the outbox. -/
def controlledClaimTenantV1 (f : ClaimFence) (now : Instant) : QueueProc (Option Uuid) := do
  let s ← Txn.get
  if ¬IsWorker f.owner ∨ f.generation < 1 then pure none
  else pure ((s.held? f now).map QueuedEvent.tenantId)

/-- The live attempt of a fence. -/
def QueueDb.attempt? (s : QueueDb) (f : ClaimFence) : Option PublicationAttempt :=
  (s.attempts.find? (f.event, f.generation)).filter
    fun a => a.workerId = f.owner ∧ a.status = .claimed

/-- The error of a claim without its attempt. -/
def missingAttempt : PgError := ⟨"23514", "", "missing live publication attempt"⟩

/-- The common part of a renewal and a completion: the tenant is resolved from the fence, the event
is rewritten where the fence still holds, and with it the live attempt of the fence. -/
def underClaim (sess : Session) (f : ClaimFence) (resolve check : Instant)
    (event : QueuedEvent → QueuedEvent) (attempt : PublicationAttempt → PublicationAttempt) :
    QueueProc Bool := do
  let tenant ← controlledClaimTenantV1 f resolve
  let s ← Txn.get
  match tenant.filter fun t => sess.Allows t ∧ f.owner = sess.actorId, s.held? f check with
  | some _, some e => do
    let a ← Txn.orRaise (s.attempt? f) missingAttempt
    Txn.set { s with
      events := s.events.replace (event e)
      attempts := s.attempts.replace (attempt a) }
    pure true
  | _, _ => pure false

/-- The clock readings of a renewal: when the tenant is resolved, when the update tests its
condition, and when it sets the end of the lease. -/
structure LeaseClock where
  resolve : Instant
  check : Instant
  set : Instant

/-- An event whose claim ends later. -/
def QueuedEvent.renew (e : QueuedEvent) (until' : Instant) : QueuedEvent :=
  { e with claimedUntil := some until' }

/-- `controlled_renew_claim_v1` for the outbox: whether the claim was renewed. -/
def controlledRenewClaimV1 (sess : Session) (f : ClaimFence) (lease : ℤ) (clock : LeaseClock) :
    QueueProc Bool := do
  Txn.raiseIf (lease < 0 ∨ longestLease < lease) ⟨"22023", "", "invalid lease duration"⟩
  underClaim sess f clock.resolve clock.check (fun e => e.renew (clock.set + lease))
    (fun a => { a with leaseUntil := clock.set + lease })

/-! ## Completion -/

/-- How a worker completes a claim. -/
inductive Completion where
  | published
  | retrying
  | dead
deriving DecidableEq

/-- The status that a completion gives to its attempt. -/
def Completion.status : Completion → AttemptStatus
  | published => .published
  | retrying => .retrying
  | dead => .dead

/-- `NULLIF(p_code, '')`. -/
def errorCode (code : String) : Option String := if code = "" then none else some code

/-- The arguments of `controlled_complete_outbox_v1` besides the fence. -/
structure OutboxCompletion where
  time : Instant
  status : Completion
  code : String

/-- The clock readings of a completion. -/
structure CompletionClock where
  resolve : Instant
  check : Instant
  terminal : Instant
  completed : Instant

/-- A completed event. -/
def QueuedEvent.complete (e : QueuedEvent) (p : OutboxCompletion) (now : Instant) : QueuedEvent :=
  { e with
    publishedAt := if p.status = .published then some now else e.publishedAt
    deadAt := if p.status = .dead then some now else e.deadAt
    availableAt := if p.status = .retrying then p.time else e.availableAt
    lastErrorCode := errorCode p.code
    claimOwner := none
    claimedUntil := none }

/-- `controlled_complete_outbox_v1`: whether the claim was completed. -/
def controlledCompleteOutboxV1 (sess : Session) (f : ClaimFence) (p : OutboxCompletion)
    (clock : CompletionClock) : QueueProc Bool := do
  Txn.raiseIf (128 < p.code.utf8ByteSize ∨ HasControl p.code)
    ⟨"22023", "", "invalid outbox completion"⟩
  underClaim sess f clock.resolve clock.check (fun e => e.complete p clock.terminal)
    (fun a => { a with
      status := p.status.status
      errorCode := errorCode p.code
      completedAt := some clock.completed })

/-- `controlled_prepare_publication_v1`: what the worker stamped, the receipt of the event and its
sending, and the stamp of the message. -/
def controlledPreparePublicationV1 (sess : Session) (f : ClaimFence) (node : String)
    (now : Instant) : QueueProc (List StampedEvent) := do
  let s ← Txn.get
  match (s.held? f now).filter fun e => sess.Allows e.tenantId ∧ f.owner = sess.actorId with
  | none => pure []
  | some e => do
    let received ← advanceLogicalClock node ((e.logicalTimestamp.map fun b => (b : ℤ)).getD 0)
    let sent ← advanceLogicalClock node 0
    let s ← Txn.get
    let a ← Txn.orRaise (s.attempt? f) missingAttempt
    Txn.set { s with attempts := s.attempts.replace { a with
      nodeId := some node
      receiveCounter := some received
      sendCounter := some sent } }
    pure [⟨node, received, e.nodeId.bind fun n => e.logicalTimestamp.map fun t => (n, t)⟩,
      ⟨node, sent, none⟩]

/-! ## Receipts -/

/-- A message as a consumer reads it: the event, the place in the transport, and the stamp of its
delivery, or of the event where the delivery has none. -/
structure ReceivedMessage where
  tenant : Uuid
  event : Uuid
  transport : String
  sender : Option (String × Bigint)

/-- `controlled_receive_message_v1`: what the consumer stamped. -/
def controlledReceiveMessageV1 (sess : Session) (node : String) (m : ReceivedMessage) :
    QueueProc StampedEvent := do
  Txn.raiseIf (¬sess.Allows m.tenant ∨ sess.actorId ≠ "system:" ++ node)
    ⟨"42501", "", "message receipt scope denied"⟩
  Txn.raiseIf (m.transport.utf8ByteSize < 1 ∨ 128 < m.transport.utf8ByteSize ∨
      ∃ x, m.sender = some x ∧ (x.1.utf8ByteSize < 1 ∨ 128 < x.1.utf8ByteSize ∨ (x.2 : ℤ) < 1))
    ⟨"22023", "", "invalid message receipt"⟩
  let s ← Txn.get
  Txn.raiseIf (¬∃ e, s.events.find? m.event = some e ∧ e.tenantId = m.tenant)
    ⟨"42501", "", "message event scope denied"⟩
  let received ← advanceLogicalClock node ((m.sender.map fun x => (x.2 : ℤ)).getD 0)
  let s ← Txn.get
  let t ← Txn.orRaise (s.receipts.insert? ⟨node, received, m.tenant, m.event, m.transport, m.sender⟩)
    (uniqueViolation "logical_message_receipts_pkey")
  Txn.set { s with receipts := t }
  pure ⟨node, received, m.sender⟩

/-- `receiveTenantBatch`: the messages of one tenant in one transaction. -/
def receiveTenantBatch (sess : Session) (node : String) :
    List ReceivedMessage → QueueProc (List StampedEvent)
  | [] => pure []
  | m :: ms => do
    let e ← controlledReceiveMessageV1 sess node m
    let es ← receiveTenantBatch sess node ms
    pure (e :: es)

/-! ## Recovery -/

/-- The arguments of `controlled_outbox_recovery_v1` besides the action. -/
structure RecoveryRequest where
  tenant : Uuid
  actor : String
  event : Uuid
  reason : String
  correlation : Uuid
  time : Instant
  actionId : Uuid

/-- `p_reason ~ '^[a-z0-9_]{3,64}$'`. -/
def IsReasonCode (s : String) : Prop :=
  3 ≤ s.toList.length ∧ s.toList.length ≤ 64 ∧
    ∀ c ∈ s.toList, ('a' ≤ c ∧ c ≤ 'z') ∨ ('0' ≤ c ∧ c ≤ '9') ∨ c = '_'

/-- Whether a text is a reason can be decided. -/
instance (s : String) : Decidable (IsReasonCode s) := inferInstanceAs (Decidable (_ ∧ _ ∧ _))

/-- The caller is an operator or a member of finance of the tenant. -/
def QueueDb.RecoveryActor (s : QueueDb) (sess : Session) (p : RecoveryRequest) : Prop :=
  sess.Allows p.tenant ∧ p.actor = sess.actorId ∧ ∃ r ∈ s.subjectRoles, r.tenantId = p.tenant ∧
    r.subjectId = p.actor ∧ (r.role = .operator ∨ r.role = .finance)

/-- Whether a caller may recover events can be decided. -/
instance (s : QueueDb) (sess : Session) (p : RecoveryRequest) : Decidable (s.RecoveryActor sess p) :=
  inferInstanceAs (Decidable (_ ∧ _ ∧ ∃ r ∈ _, _))

/-- The event is dead, and not published. -/
def QueuedEvent.IsDead (e : QueuedEvent) (tenant : Uuid) : Prop :=
  e.tenantId = tenant ∧ e.deadAt ≠ none ∧ e.publishedAt = none

/-- Whether an event of a tenant is dead can be decided. -/
instance (e : QueuedEvent) (tenant : Uuid) : Decidable (e.IsDead tenant) :=
  inferInstanceAs (Decidable (_ ∧ _ ∧ _))

/-- The error where there is no dead event. -/
def deadEventNotFound : PgError :=
  ⟨"P0002", "controlled_recovery_outbox_not_found", "dead outbox event not found"⟩

/-- The approval of a replay. -/
def QueueDb.approval? (s : QueueDb) (p : RecoveryRequest) : Option ReplayAction :=
  s.replays.rows.find? fun r => r.eventId = p.event ∧ r.action = .approved ∧
    r.correlationId = p.correlation

/-- `INSERT INTO outbox_replay_actions`. -/
def insertReplay (p : RecoveryRequest) (kind : ReplayKind) (reason : String) : QueueProc Unit := do
  let s ← Txn.get
  Txn.raiseIf (∃ r ∈ s.replays.rows, r.eventId = p.event ∧ r.action = kind ∧
      (r.correlationId = p.correlation ∨ kind = .executed))
    (uniqueViolation "outbox_replay_executed_once_idx")
  let t ← Txn.orRaise (s.replays.insert?
    ⟨p.actionId, p.tenant, p.event, kind, p.actor, reason, p.correlation, p.time⟩)
    (uniqueViolation "outbox_replay_actions_pkey")
  Txn.set { s with replays := t }

/-- `controlled_outbox_recovery_v1` with the action `approve`. -/
def approveOutboxRecovery (sess : Session) (p : RecoveryRequest) : QueueProc Unit := do
  let s ← Txn.get
  Txn.raiseIf (¬s.RecoveryActor sess p)
    ⟨"42501", "controlled_recovery_not_approved", "recovery actor denied"⟩
  Txn.raiseIf (¬IsReasonCode p.reason) ⟨"22023", "", "invalid recovery reason"⟩
  Txn.raiseIf (¬∃ e, s.events.find? p.event = some e ∧ e.IsDead p.tenant) deadEventNotFound
  match s.approval? p with
  | some r => do
    Txn.raiseIf (r.tenantId ≠ p.tenant) noDataFound
    Txn.raiseIf (r.actorSubjectId ≠ p.actor ∨ r.reasonCode ≠ p.reason)
      ⟨"23505", "controlled_recovery_idempotency", "approval correlation conflict"⟩
  | none => insertReplay p .approved p.reason

/-- An event that is reopened. -/
def QueuedEvent.reopen (e : QueuedEvent) (time : Instant) : QueuedEvent :=
  { e with
    deadAt := none
    lastErrorCode := some "approved_replay"
    attemptCount := 0
    availableAt := time
    claimOwner := none
    claimedUntil := none }

/-- `controlled_outbox_recovery_v1` with the action `execute`. -/
def executeOutboxRecovery (sess : Session) (p : RecoveryRequest) : QueueProc Unit := do
  let s ← Txn.get
  Txn.raiseIf (¬s.RecoveryActor sess p)
    ⟨"42501", "controlled_recovery_not_approved", "recovery actor denied"⟩
  let approval ← Txn.orRaise ((s.approval? p).filter fun r => r.tenantId = p.tenant ∧
      r.createdAt ≤ p.time ∧ p.time < r.createdAt + day)
    ⟨"42501", "controlled_recovery_not_approved", "live replay approval required"⟩
  Txn.raiseIf (approval.actorSubjectId = p.actor)
    ⟨"42501", "controlled_recovery_separation", "independent replay actor required"⟩
  let e ← Txn.orRaise ((s.events.find? p.event).filter (·.IsDead p.tenant)) deadEventNotFound
  Txn.set { s with events := s.events.replace (e.reopen p.time) }
  insertReplay p .executed approval.reasonCode

/-! ## Histories -/

/-- The calls, with their clock readings. The last two stand for what happens outside of them: a
component counts by itself, and operators change roles. -/
inductive QueueCall where
  | insert (app : String) (e : NewEvent)
  | claim (p : OutboxClaim)
  | renew (sess : Session) (f : ClaimFence) (lease : ℤ) (clock : LeaseClock)
  | prepare (sess : Session) (f : ClaimFence) (node : String) (now : Instant)
  | complete (sess : Session) (f : ClaimFence) (p : OutboxCompletion) (clock : CompletionClock)
  | approve (sess : Session) (p : RecoveryRequest)
  | execute (sess : Session) (p : RecoveryRequest)
  | receive (sess : Session) (node : String) (messages : List ReceivedMessage)
  | advance (node : String) (received : Bigint)
  | configure (roles : List SubjectRole)

/-- A call as a transaction: what the components stamped. -/
def QueueCall.exec : QueueCall → QueueProc (List StampedEvent)
  | .insert app e => insertQueued app e
  | .claim p => do
    let _ ← controlledClaimOutboxV1 p
    pure []
  | .renew sess f lease clock => do
    let _ ← controlledRenewClaimV1 sess f lease clock
    pure []
  | .prepare sess f node now => controlledPreparePublicationV1 sess f node now
  | .complete sess f p clock => do
    let _ ← controlledCompleteOutboxV1 sess f p clock
    pure []
  | .approve sess p => do
    approveOutboxRecovery sess p
    pure []
  | .execute sess p => do
    executeOutboxRecovery sess p
    pure []
  | .receive sess node messages => receiveTenantBatch sess node messages
  | .advance node received => do
    let stamp ← advanceLogicalClock node received
    pure [⟨node, stamp, none⟩]
  | .configure roles => do
    let s ← Txn.get
    Txn.set { s with subjectRoles := roles }
    pure []

/-! ## What a returning procedure did -/

section Specs

variable {s s' : QueueDb}

/-- A component counts past its own counter and past what it received. -/
theorem advanceLogicalClock_ok {node : String} {received : ℤ} {k : Bigint}
    (h : advanceLogicalClock node received s = .ok (k, s')) :
    (k : ℤ) = max (s.clock node) received + 1 ∧ s'.clock node = k ∧
      (∀ n, n ≠ node → s'.clock n = s.clock n) ∧ s' = { s with clocks := s'.clocks } := by
  simp only [advanceLogicalClock, Txn.raiseIf_bind_ok, Txn.get_bind_ok, not_or, not_lt] at h
  obtain ⟨⟨-, -, hreceived⟩, h⟩ := h
  -- The node has no clock yet, or it has one.
  rcases hfind : s.clocks.find? node with _ | c
  · simp only [hfind, Txn.orRaise_bind_ok, Txn.set_bind_ok, Txn.pure_ok, Bigint.ofInt?_eq_some] at h
    obtain ⟨counter, hcounter, t, ht, rfl, rfl⟩ := h
    refine ⟨?_, ?_, fun n hn => ?_, rfl⟩
    · rw [hcounter, QueueDb.clock, hfind, Option.map_none, Option.getD_none, max_eq_right hreceived]
    · rw [QueueDb.clock, Table.find?_insert?_self ht rfl]
      rfl
    · rw [QueueDb.clock, QueueDb.clock, Table.find?_insert?_ne ht hn]
  · simp only [hfind, Txn.orRaise_bind_ok, Txn.set_bind_ok, Txn.pure_ok, Bigint.ofInt?_eq_some] at h
    obtain ⟨counter, hcounter, rfl, rfl⟩ := h
    refine ⟨?_, ?_, fun n hn => ?_, rfl⟩
    · rw [hcounter, QueueDb.clock, hfind]
      rfl
    · rw [QueueDb.clock, Table.find?_replace_self hfind rfl]
      rfl
    · rw [QueueDb.clock, QueueDb.clock, Table.find?_replace_ne hn]

/-- The event that is held is found under the identifier of the fence. -/
theorem held?_eq_some {f : ClaimFence} {now : Instant} {e : QueuedEvent} :
    s.held? f now = some e ↔ s.events.find? f.event = some e ∧ e.HeldBy f now := by
  simp [QueueDb.held?, Option.filter_eq_some_iff]

/-- A claim takes candidates, and gives each of them an attempt of its own. -/
theorem controlledClaimOutboxV1_ok {p : OutboxClaim} {r : List QueuedEvent}
    (h : controlledClaimOutboxV1 p s = .ok (r, s')) :
    r = (p.selected s).map (fun e => e.claim p) ∧
      (∀ i, s'.events.find? i =
        (s.events.find? i).map fun e => if e ∈ p.selected s then e.claim p else e) ∧
      s.attempts.insertAll? ((p.selected s).map (claimedAttempt p)) = some s'.attempts ∧
      s' = { s with events := s'.events, attempts := s'.attempts } := by
  simp only [controlledClaimOutboxV1, Txn.raiseIf_bind_ok, Txn.get_bind_ok, Txn.orRaise_bind_ok,
    Txn.set_bind_ok, Txn.pure_ok] at h
  obtain ⟨-, -, attempts, hattempts, rfl, rfl⟩ := h
  refine ⟨rfl, fun i => ?_, hattempts, rfl⟩
  rw [Table.find?_mapRows]

/-- What a claim selects can be claimed. -/
theorem OutboxClaim.candidate_of_selected {p : OutboxClaim} {e : QueuedEvent}
    (h : e ∈ p.selected s) : e ∈ s.events ∧ p.Candidate e := by
  have hmem := List.mem_mergeSort.mp (List.mem_of_mem_take h)
  obtain ⟨he, hcandidate⟩ := List.mem_filter.mp hmem
  exact ⟨he, of_decide_eq_true hcandidate⟩

/-- A renewal or a completion either did nothing, or rewrote the event under the live claim of its
fence and the attempt of that claim. -/
theorem underClaim_ok {sess : Session} {f : ClaimFence} {resolve check : Instant}
    {event : QueuedEvent → QueuedEvent} {attempt : PublicationAttempt → PublicationAttempt}
    {r : Bool} (h : underClaim sess f resolve check event attempt s = .ok (r, s')) :
    (r = false ∧ s' = s) ∨
      (r = true ∧ ∃ e a, s.held? f resolve = some e ∧ s.held? f check = some e ∧
        s.attempt? f = some a ∧ s' = { s with
          events := s.events.replace (event e), attempts := s.attempts.replace (attempt a) }) := by
  unfold underClaim at h
  obtain ⟨tenant, s₁, htenant, hrest⟩ := Txn.bind_ok.mp h
  -- Resolving the tenant writes nothing, and finds one only under the live claim.
  have hresolve : s₁ = s ∧ ∀ t, tenant = some t → ∃ e, s.held? f resolve = some e := by
    simp only [controlledClaimTenantV1, Txn.get_bind_ok] at htenant
    split_ifs at htenant
    · obtain ⟨rfl, rfl⟩ := Txn.pure_ok.mp htenant
      exact ⟨rfl, fun t ht => by cases ht⟩
    · obtain ⟨rfl, rfl⟩ := Txn.pure_ok.mp htenant
      refine ⟨rfl, fun t ht => ?_⟩
      obtain ⟨e, he, -⟩ := Option.map_eq_some_iff.mp ht
      exact ⟨e, he⟩
  obtain ⟨rfl, hheld⟩ := hresolve
  rw [Txn.get_bind_ok] at hrest
  rcases hscope : tenant.filter (fun t => sess.Allows t ∧ f.owner = sess.actorId) with _ | t
  · simp only [hscope, Txn.pure_ok] at hrest
    exact .inl ⟨hrest.1.symm, hrest.2.symm⟩
  rcases hcheck : s₁.held? f check with _ | e
  · simp only [hscope, hcheck, Txn.pure_ok] at hrest
    exact .inl ⟨hrest.1.symm, hrest.2.symm⟩
  simp only [hscope, hcheck, Txn.orRaise_bind_ok, Txn.set_bind_ok, Txn.pure_ok] at hrest
  obtain ⟨a, ha, rfl, rfl⟩ := hrest
  obtain ⟨e', he'⟩ := hheld t (Option.filter_eq_some_iff.mp hscope).1
  have hsame : e' = e := Option.some.inj
    ((held?_eq_some.mp he').1.symm.trans (held?_eq_some.mp hcheck).1)
  exact .inr ⟨rfl, e, a, hsame ▸ he', rfl, ha, rfl⟩

/-- A renewal acts under the claim: it sets the lease of the event and of its attempt. -/
theorem controlledRenewClaimV1_ok {sess : Session} {f : ClaimFence} {lease : ℤ} {clock : LeaseClock}
    {r : Bool} (h : controlledRenewClaimV1 sess f lease clock s = .ok (r, s')) :
    underClaim sess f clock.resolve clock.check (fun e => e.renew (clock.set + lease))
      (fun a => { a with leaseUntil := clock.set + lease }) s = .ok (r, s') := by
  simp only [controlledRenewClaimV1, Txn.raiseIf_bind_ok] at h
  exact h.2

/-- A completion acts under the claim: it settles the event and its attempt. -/
theorem controlledCompleteOutboxV1_ok {sess : Session} {f : ClaimFence} {p : OutboxCompletion}
    {clock : CompletionClock} {r : Bool}
    (h : controlledCompleteOutboxV1 sess f p clock s = .ok (r, s')) :
    underClaim sess f clock.resolve clock.check (fun e => e.complete p clock.terminal)
      (fun a => { a with
        status := p.status.status
        errorCode := errorCode p.code
        completedAt := some clock.completed }) s = .ok (r, s') := by
  simp only [controlledCompleteOutboxV1, Txn.raiseIf_bind_ok] at h
  exact h.2

/-- A preparation either did nothing, or stamped the receipt of the event and its sending and wrote
the stamps to the attempt of the live claim. -/
theorem controlledPreparePublicationV1_ok {sess : Session} {f : ClaimFence} {node : String}
    {now : Instant} {r : List StampedEvent}
    (h : controlledPreparePublicationV1 sess f node now s = .ok (r, s')) :
    (r = [] ∧ s' = s) ∨
      ∃ e a received sent s₁, s.held? f now = some e ∧
        advanceLogicalClock node ((e.logicalTimestamp.map fun b => (b : ℤ)).getD 0) s =
          .ok (received, s₁) ∧
        advanceLogicalClock node 0 s₁ = .ok (sent, { s' with attempts := s.attempts }) ∧
        s.attempt? f = some a ∧
        s'.attempts = s.attempts.replace { a with
          nodeId := some node
          receiveCounter := some received
          sendCounter := some sent } ∧
        r = [⟨node, received, e.nodeId.bind fun n => e.logicalTimestamp.map fun t => (n, t)⟩,
          ⟨node, sent, none⟩] := by
  simp only [controlledPreparePublicationV1, Txn.get_bind_ok] at h
  rcases hheld : (s.held? f now).filter
    (fun e => sess.Allows e.tenantId ∧ f.owner = sess.actorId) with _ | e
  -- Without a claim of this owner nothing is prepared.
  · simp only [hheld, Txn.pure_ok] at h
    exact .inl ⟨h.1.symm, h.2.symm⟩
  simp only [hheld] at h
  obtain ⟨received, s₁, hreceived, h⟩ := Txn.bind_ok.mp h
  obtain ⟨sent, s₂, hsent, h⟩ := Txn.bind_ok.mp h
  simp only [Txn.get_bind_ok, Txn.orRaise_bind_ok, Txn.set_bind_ok, Txn.pure_ok] at h
  obtain ⟨a, ha, rfl, rfl⟩ := h
  -- Neither advance of the clock touches the attempts.
  obtain ⟨-, -, -, hframe₁⟩ := advanceLogicalClock_ok hreceived
  obtain ⟨-, -, -, hframe₂⟩ := advanceLogicalClock_ok hsent
  have hattempts : s₂.attempts = s.attempts := by rw [hframe₂, hframe₁]
  refine .inr ⟨e, a, received, sent, s₁, (Option.filter_eq_some_iff.mp hheld).1, hreceived, ?_, ?_,
    by rw [hattempts], rfl⟩
  · rw [hsent]
    congr 2
    rw [← hattempts]
  · unfold QueueDb.attempt? at ha ⊢
    rw [← hattempts]
    exact ha

/-- A receipt is stamped past the stamp of its message, and stored. -/
theorem controlledReceiveMessageV1_ok {sess : Session} {node : String} {m : ReceivedMessage}
    {r : StampedEvent} (h : controlledReceiveMessageV1 sess node m s = .ok (r, s')) :
    ∃ received s₁ t, advanceLogicalClock node ((m.sender.map fun x => (x.2 : ℤ)).getD 0) s =
        .ok (received, s₁) ∧
      s₁.receipts.insert? ⟨node, received, m.tenant, m.event, m.transport, m.sender⟩ = some t ∧
      s' = { s₁ with receipts := t } ∧ r = ⟨node, received, m.sender⟩ := by
  simp only [controlledReceiveMessageV1, Txn.raiseIf_bind_ok, Txn.get_bind_ok] at h
  obtain ⟨-, -, -, h⟩ := h
  obtain ⟨received, s₁, hreceived, h⟩ := Txn.bind_ok.mp h
  simp only [Txn.get_bind_ok, Txn.orRaise_bind_ok, Txn.set_bind_ok, Txn.pure_ok] at h
  obtain ⟨t, ht, rfl, rfl⟩ := h
  exact ⟨received, s₁, t, hreceived, ht, rfl, rfl⟩

/-- A new event is stored, stamped or not. -/
theorem insertQueued_ok {app : String} {e : NewEvent} {r : List StampedEvent}
    (h : insertQueued app e s = .ok (r, s')) :
    ∃ stamped, s.events.insert? (e.row stamped) = some s'.events ∧
      s'.attempts = s.attempts ∧ s'.receipts = s.receipts ∧
      ((stamped = none ∧ r = [] ∧ s'.clocks = s.clocks) ∨
        ∃ stamp parent s₁, stamped = some (app, stamp, parent) ∧
          advanceLogicalClock app 0 s = .ok (stamp, s₁) ∧ s'.clocks = s₁.clocks ∧
          r = [⟨app, stamp, none⟩]) := by
  unfold insertQueued at h
  obtain ⟨stamped, s₁, hstamp, h⟩ := Txn.bind_ok.mp h
  simp only [Txn.get_bind_ok, Txn.orRaise_bind_ok, Txn.set_bind_ok, Txn.pure_ok] at h
  obtain ⟨t, ht, rfl, rfl⟩ := h
  refine ⟨stamped, ?_⟩
  unfold stampOutboxLogicalClock at hstamp
  split_ifs at hstamp
  · obtain ⟨stamp, s₂, hadvance, hrest⟩ := Txn.bind_ok.mp hstamp
    obtain ⟨rfl, rfl⟩ := Txn.pure_ok.mp hrest
    obtain ⟨-, -, -, hframe⟩ := advanceLogicalClock_ok hadvance
    have hevents : s₂.events = s.events := by rw [hframe]
    rw [hevents] at ht
    exact ⟨ht, by rw [hframe], by rw [hframe], .inr ⟨stamp, _, s₂, rfl, hadvance, rfl, rfl⟩⟩
  · obtain ⟨rfl, rfl⟩ := Txn.pure_ok.mp hstamp
    exact ⟨ht, rfl, rfl, .inl ⟨rfl, rfl, rfl⟩⟩

/-- A replay action that is inserted changes its table only. -/
theorem insertReplay_ok {p : RecoveryRequest} {kind : ReplayKind} {reason : String} {u : Unit}
    (h : insertReplay p kind reason s = .ok (u, s')) : s' = { s with replays := s'.replays } := by
  simp only [insertReplay, Txn.get_bind_ok, Txn.raiseIf_bind_ok, Txn.orRaise_bind_ok, Txn.set_ok] at h
  obtain ⟨-, t, -, rfl⟩ := h
  rfl

/-- An approval of a recovery changes the table of replay actions only. -/
theorem approveOutboxRecovery_ok {sess : Session} {p : RecoveryRequest} {u : Unit}
    (h : approveOutboxRecovery sess p s = .ok (u, s')) : s' = { s with replays := s'.replays } := by
  simp only [approveOutboxRecovery, Txn.get_bind_ok, Txn.raiseIf_bind_ok] at h
  obtain ⟨-, -, -, h⟩ := h
  rcases hprior : s.approval? p with _ | r
  · simp only [hprior] at h
    exact insertReplay_ok h
  · simp only [hprior, Txn.raiseIf_bind_ok, Txn.raiseIf_ok] at h
    obtain ⟨-, -, rfl⟩ := h
    rfl

/-- The execution of a recovery reopens a dead event. -/
theorem executeOutboxRecovery_ok {sess : Session} {p : RecoveryRequest} {u : Unit}
    (h : executeOutboxRecovery sess p s = .ok (u, s')) :
    ∃ e, s.events.find? p.event = some e ∧ e.IsDead p.tenant ∧
      s' = { s with events := s.events.replace (e.reopen p.time), replays := s'.replays } := by
  simp only [executeOutboxRecovery, Txn.get_bind_ok, Txn.raiseIf_bind_ok, Txn.orRaise_bind_ok,
    Txn.set_bind_ok, Option.filter_eq_some_iff, decide_eq_true_eq] at h
  obtain ⟨-, approval, -, -, e, ⟨hfind, hdead⟩, h⟩ := h
  exact ⟨e, hfind, hdead, insertReplay_ok h⟩

end Specs

end LedgerSync
