import LedgerSync.BalanceReconciliation
import LedgerSync.EventViews
import LedgerSync.OutcomeReaders
import LedgerSync.SavedViews
import LedgerSync.Scheduler
import LedgerSync.StatementParsers
import LedgerSync.TransferEvents
import LedgerSync.WebhookDeliveries

/-!
# Explanations of transfers

An operator is shown the evidence that is stored for a transfer in seven stages, and told whether it
is complete. Each stage is read from its own table and bounded. The stage of the balance versions is
made from the outbox events of the first version only, but the trigger of the outbox stores the
event of an account with a reserved amount as one of the second version. `explanation_honest_iff`
says exactly which explanations show what they promise.

What other components store (the delivery columns of an event, delivery attempts, reconciliation
runs) may be anything, and so may which rows a stored snapshot shows. Retention is left out: it
deletes no event that workers have published.
-/

namespace LedgerSync

open Lib

/-! ## Evidence -/

/-- `EvidenceItem`; a field that is not set has the zero value. -/
structure EvidenceItem where
  evidenceType : String
  evidenceId : String := ""
  relatedId : String := ""
  status : String := ""
  eventType : String := ""
  accountId : String := ""
  direction : String := ""
  amountMinor : String := ""
  currency : String := ""
  balanceVersion : String := ""
  attemptNumber : String := ""
  occurredAt : Option Instant := none
deriving DecidableEq

/-- `EvidenceLink`. -/
structure EvidenceLink where
  items : List EvidenceItem
  unavailable : Bool := false
  truncated : Bool := false

/-- The link of a read that failed. -/
def EvidenceLink.failed : EvidenceLink := { items := [], unavailable := true }

/-- The link that keeps at most `limit` of the items, of which one more was read. -/
def EvidenceLink.bounded (limit : ℕ) (items : List EvidenceItem) : EvidenceLink :=
  if limit < items.length then { items := items.take limit, truncated := true }
  else { items := items }

/-- `TransferFacts`. -/
structure TransferFacts where
  transferId : String
  request : EvidenceLink
  transfer : EvidenceLink
  journalPostings : EvidenceLink
  balanceVersions : EvidenceLink
  outbox : EvidenceLink
  delivery : EvidenceLink
  reconciliation : EvidenceLink

/-- A row of `reconciliation_runs`, as far as the explanation reads it. -/
structure StoredRun where
  id : Uuid
  tenantId : Uuid
  status : RunStatus
  completedAt : Instant
  ledgerWatermark : String

/-- The reads of an explanation. -/
inductive EvidenceRead where
  | scope
  | transfer
  | request
  | journal
  | postings
  | outbox
  | delivery
  | reconciliation

/-- What an explanation reads besides the tables of the commands. -/
structure EvidenceSource where
  /-- `idempotency_requests.created_at`. -/
  requestCreatedAt : IdempotencyRequest → Instant
  /-- The order of `operation` in the collation of the database. -/
  operationLe : String → String → Bool
  /-- The state of an outbox event, from its delivery columns. -/
  eventState : OutboxEvent → EventState
  /-- `delivery_attempts`. -/
  attempts : List DeliveryAttempt
  /-- `reconciliation_runs`. -/
  runs : List StoredRun
  /-- `pg_visible_in_snapshot` of the row with the id, for the text of a snapshot. -/
  visible : String → Uuid → Bool
  /-- The read fails. -/
  fails : EvidenceRead → Bool

/-- `maxTimelinePostings`. -/
def maxTimelinePostings : ℕ := 4
/-- `maxTimelineOutbox`. -/
def maxTimelineOutbox : ℕ := 8
/-- `maxTimelineDelivery`. -/
def maxTimelineDelivery : ℕ := 25

/-- The text of `idempotency_requests.state`. -/
def RequestState.text : RequestState → String
  | inProgress => "in_progress"
  | completed => "completed"
  | failed => "failed"

/-- The text of `delivery_attempts.status`. -/
def DeliveryStatus.text : DeliveryStatus → String
  | pending => "pending"
  | retrying => "retrying"
  | delivered => "delivered"
  | dead => "dead"

/-- The text of `reconciliation_runs.status`. -/
def RunStatus.text : RunStatus → String
  | matched => "matched"
  | mismatch => "mismatch"
  | failed => "failed"

/-- `allowedGuidanceEventType`. -/
def allowedGuidanceEventType (value : String) : String :=
  if trimSpace value = balanceChangedV1 then balanceChangedV1 else ""

/-- `ORDER BY` a time and then an id. -/
def byTimeAndId (t t' : Instant) (id id' : Uuid) : Bool :=
  t < t' ∨ (t = t' ∧ id.toNat ≤ id'.toNat)

section Rows

variable (s : Db) (ev : EvidenceSource) (x : Transfer)

/-! ## The rows of each kind -/

/-- The requests that are linked to the transfer. -/
def linkedRequests : List IdempotencyRequest :=
  s.idempotencyRequests.rows.filter fun r => r.tenantId = x.tenantId ∧ r.transferId = some x.id

/-- The journals of the transfer. -/
def linkedJournals : List Journal :=
  s.journals.rows.filter fun j => j.tenantId = x.tenantId ∧ j.transferId = some x.id

/-- The postings of the journals of the transfer. -/
def linkedPostings : List Posting :=
  s.postings.rows.filter fun p => ∃ j ∈ linkedJournals s x, j.id = p.journalTransactionId

/-- The outbox events of the transfer. -/
def linkedEvents : List OutboxEvent :=
  s.outbox.rows.filter fun e => e.tenantId = x.tenantId ∧ e.transferId = some x.id

/-- The delivery attempts of the transfer. -/
def linkedAttempts : List DeliveryAttempt :=
  ev.attempts.filter fun a => a.tenantId = x.tenantId ∧ a.transferId = x.id

/-- `^[0-9]+:[0-9]+:(?:[0-9]+(?:,[0-9]+)*)?$`. -/
def isWatermark (w : String) : Bool :=
  let number : List Char → Bool := fun l => l ≠ [] ∧ l.all Char.isDigit
  match w.toList.splitOn ':' with
  | [xmin, xmax, running] =>
    number xmin && number xmax && (running = [] || (running.splitOn ',').all number)
  | _ => false

/-- The snapshot of the run shows the transfer, one of its journals and all postings of this one. -/
def StoredRun.covers (run : StoredRun) : Bool :=
  (linkedJournals s x).any fun j => isWatermark run.ledgerWatermark &&
    ev.visible run.ledgerWatermark x.id && ev.visible run.ledgerWatermark j.id &&
      (s.postings.rows.filter fun p => p.journalTransactionId = j.id).all fun p =>
        ev.visible run.ledgerWatermark p.id

/-- The runs that cover the transfer. -/
def coveringRuns : List StoredRun :=
  ev.runs.filter fun run => run.tenantId = x.tenantId ∧ run.covers s ev x

/-! ## Their items -/

/-- `COALESCE(completed_at,created_at)`. -/
def EvidenceSource.requestTime (r : IdempotencyRequest) : Instant :=
  r.completedAt.getD (ev.requestCreatedAt r)

/-- The item of the request. -/
def requestItem (r : IdempotencyRequest) : EvidenceItem where
  evidenceType := "idempotency_outcome"
  relatedId := x.id.text
  status := allowedGuidanceStatus r.state.text
  occurredAt := some (ev.requestTime r)

/-- The item of the transfer. -/
def transferItem : EvidenceItem where
  evidenceType := "transfer"
  evidenceId := x.id.text
  status := allowedGuidanceStatus x.status.text
  amountMinor := x.amount.text
  currency := x.currency
  occurredAt := some (x.completedAt.getD x.createdAt)

/-- The item of a journal. -/
def journalItem (j : Journal) : EvidenceItem where
  evidenceType := "journal"
  evidenceId := j.id.text
  relatedId := x.id.text
  occurredAt := some j.occurredAt

/-- The item of a posting. -/
def postingItem (p : Posting) : EvidenceItem where
  evidenceType := "posting"
  evidenceId := p.id.text
  relatedId := (x.journalTransactionId.map Uuid.text).getD ""
  status := allowedGuidanceStatus p.direction.text
  accountId := p.accountId.text
  direction := allowedGuidanceStatus p.direction.text
  amountMinor := p.amount.text
  currency := p.currency
  occurredAt := some p.occurredAt

/-- `COALESCE(account_id::text,'')`. -/
def OutboxEvent.accountText (e : OutboxEvent) : String := (e.accountId.map Uuid.text).getD ""

/-- The item of an event of the outbox. -/
def outboxItem (e : OutboxEvent) : EvidenceItem where
  evidenceType := "outbox_event"
  evidenceId := e.id.text
  relatedId := x.id.text
  status := allowedGuidanceStatus (ev.eventState e).text
  eventType := allowedGuidanceEventType e.eventType
  accountId := e.accountText
  balanceVersion := decimal e.aggregateVersion
  occurredAt := some e.occurredAt

/-- The item of a balance version that an event announces. -/
def versionItem (e : OutboxEvent) : EvidenceItem where
  evidenceType := "balance_version"
  evidenceId := e.id.text
  relatedId := x.id.text
  accountId := e.accountText
  balanceVersion := decimal e.aggregateVersion
  occurredAt := some e.occurredAt

/-- The item of an attempt to deliver. -/
def deliveryItem (a : DeliveryAttempt) : EvidenceItem where
  evidenceType := "delivery_attempt"
  evidenceId := a.id.text
  relatedId := ((a.outboxEventId.bind fun id => (s.outbox.find? id).filter fun e =>
    e.tenantId = a.tenantId ∧ e.transferId = some a.transferId).map fun e => e.id.text).getD ""
  status := allowedGuidanceStatus a.status.text
  attemptNumber := decimal a.attemptNumber
  occurredAt := some (a.completedAt.getD (a.startedAt.getD a.createdAt))

/-- The item of a reconciliation run. -/
def runItem (run : StoredRun) : EvidenceItem where
  evidenceType := "reconciliation_run"
  evidenceId := run.id.text
  relatedId := x.id.text
  status := allowedGuidanceStatus run.status.text
  occurredAt := some run.completedAt

/-! ## The repository -/

/-- The first rows of a query in its order. -/
def selectFirst {ρ : Type} (limit : ℕ) (le : ρ → ρ → Bool) (rows : List ρ) : List ρ :=
  (rows.mergeSort le).take limit

/-- The evidence of the request. -/
def requestEvidence : EvidenceLink :=
  if ev.fails .request then .failed
  else .bounded 2 ((selectFirst 3 (fun r r' => ev.requestTime r < ev.requestTime r' ∨
    (ev.requestTime r = ev.requestTime r' ∧ ev.operationLe r.operation r'.operation))
      (linkedRequests s x)).map (requestItem ev x))

/-- The evidence of the journal. -/
def journalEvidence : EvidenceLink :=
  match x.journalTransactionId with
  | none => { items := [] }
  | some id =>
    if ev.fails .journal then .failed
    else match (linkedJournals s x).find? fun j => j.id = id with
      | none => { items := [] }
      | some j =>
        if ev.fails .postings then .failed
        else .bounded (maxTimelinePostings + 1) (journalItem x j ::
          (selectFirst (maxTimelinePostings + 1)
            (fun p p' => byTimeAndId p.occurredAt p'.occurredAt p.id p'.id)
            (linkedPostings s x)).map (postingItem x))

/-- The events that `outboxEvidence` reads. -/
def readEvents : List OutboxEvent :=
  selectFirst (maxTimelineOutbox + 1)
    (fun e e' => byTimeAndId e.occurredAt e'.occurredAt e.id e'.id) (linkedEvents s x)

/-- The evidence of the outbox, and of the balance versions that its events announce. -/
def outboxEvidence : EvidenceLink × EvidenceLink :=
  if ev.fails .outbox then (.failed, .failed)
  else
    let outbox := EvidenceLink.bounded maxTimelineOutbox ((readEvents s x).map (outboxItem ev x))
    let versions := EvidenceLink.bounded maxTimelinePostings
      (((readEvents s x).filter fun e => e.eventType = balanceChangedV1).map (versionItem x))
    (outbox, { versions with truncated := outbox.truncated || versions.truncated })

/-- The evidence of the delivery. -/
def deliveryEvidence : EvidenceLink :=
  if ev.fails .delivery then .failed
  else .bounded maxTimelineDelivery ((selectFirst (maxTimelineDelivery + 1)
    (fun a a' => byTimeAndId a.createdAt a'.createdAt a.id a'.id) (linkedAttempts ev x)).map
      (deliveryItem s))

/-- The evidence of the reconciliation. -/
def reconciliationEvidence : EvidenceLink :=
  if ev.fails .reconciliation then .failed
  else { items := (selectFirst 1 (fun r r' => byTimeAndId r'.completedAt r.completedAt r'.id r.id)
    (coveringRuns s ev x)).map (runItem x) }

/-- What is read of a transfer. -/
def transferFacts (transferId : String) : TransferFacts where
  transferId := transferId
  request := requestEvidence s ev x
  transfer := { items := [transferItem x] }
  journalPostings := journalEvidence s ev x
  balanceVersions := (outboxEvidence s ev x).2
  outbox := (outboxEvidence s ev x).1
  delivery := deliveryEvidence s ev x
  reconciliation := reconciliationEvidence s ev x

/-- The subject may read the transfer. -/
def Transfer.ReadableBy (subject : String) : Prop :=
  x.actorSubjectId = subject ∨
    (∃ o ∈ s.settings.accountOwners, o.tenantId = x.tenantId ∧ o.subjectId = subject ∧
      (o.accountId = x.debitAccountId ∨ o.accountId = x.creditAccountId) ∧
        (o.permission = .read ∨ o.permission = .debit)) ∨
    s.settings.HasRole x.tenantId subject [.operator, .finance]

/-- Whether a subject may read a transfer can be decided. -/
instance Transfer.decidableReadableBy (subject : String) : Decidable (x.ReadableBy s subject) :=
  inferInstanceAs (Decidable (_ ∨ (∃ o ∈ _, _) ∨ _))

end Rows

/-- Why a transfer is not explained. -/
inductive GuidanceError where
  | scope
  /-- "guided transfer not found". -/
  | transferNotFound
  /-- "read explainable transfer". -/
  | read

/-- `GuidanceRepository.ExplainTransfer`. -/
def GuidanceRepository.explainTransfer (s : Db) (ev : EvidenceSource)
    (tenantId actorId transferId : String) : Except GuidanceError TransferFacts :=
  match TenantScope.canonical ⟨tenantId, actorId⟩ with
  | none => .error .scope
  | some scope =>
    if ev.fails .scope then .error .scope
    else if ev.fails .transfer then .error .read
    else match s.transfers.rows.find? fun x =>
        x.tenantId.text = scope.tenantId ∧ x.id.text = transferId ∧ x.ReadableBy s actorId with
      | none => .error .transferNotFound
      | some x => .ok (transferFacts s ev x transferId)

/-! ## The service -/

/-- The kinds of stages. -/
inductive StageKind where
  | request
  | transfer
  | journalPostings
  | balanceVersions
  | outbox
  | delivery
  | reconciliation
deriving DecidableEq

/-- The state of a stage. -/
inductive StageState where
  | missing
  | available
  | unavailable
deriving DecidableEq

/-- `TimelineStage`. -/
structure TimelineStage where
  sequence : ℕ
  kind : StageKind
  state : StageState
  reasonCode : String
  truncated : Bool
  evidence : List EvidenceItem

/-- `ExplainabilityTimeline`. -/
structure ExplainabilityTimeline where
  transferId : String
  generatedAt : Instant
  complete : Bool
  stages : List TimelineStage

/-- The comparison of `sort.SliceStable`: items without a time are last. -/
def EvidenceItem.before (left right : EvidenceItem) : Bool :=
  match left.occurredAt, right.occurredAt with
  | none, _ => false
  | some _, none => true
  | some t, some t' => if t = t' then left.evidenceId < right.evidenceId else t < t'

/-- `stage`. -/
def stage (sequence : ℕ) (kind : StageKind) (link : EvidenceLink) (missingReason : String) :
    TimelineStage :=
  if link.unavailable then
    ⟨sequence, kind, .unavailable, "dependency_unavailable", link.truncated, []⟩
  else if link.items = [] then ⟨sequence, kind, .missing, missingReason, link.truncated, []⟩
  else
    { sequence := sequence
      kind := kind
      state := .available
      reasonCode := if link.truncated then "evidence_truncated" else ""
      truncated := link.truncated
      evidence := link.items.mergeSort fun a b => !b.before a }

/-- A journal without postings does not make its stage available. -/
def TimelineStage.withPostings (st : TimelineStage) : TimelineStage :=
  match st.evidence with
  | [item] =>
    if item.evidenceType = "journal" then { st with state := .missing, reasonCode := "no_postings" }
    else st
  | _ => st

/-- The stages of the facts. -/
def TransferFacts.stages (facts : TransferFacts) : List TimelineStage :=
  [stage 1 .request facts.request "no_retained_idempotency_outcome",
    stage 2 .transfer facts.transfer "dependency_unavailable",
    (stage 3 .journalPostings facts.journalPostings "no_journal").withPostings,
    stage 4 .balanceVersions facts.balanceVersions "no_balance_version_evidence",
    stage 5 .outbox facts.outbox "no_outbox_events",
    stage 6 .delivery facts.delivery "no_delivery_attempts",
    stage 7 .reconciliation facts.reconciliation "coverage_not_provable"]

/-- `Service.ExplainTransfer`. -/
def GuidanceService.explainTransfer (s : Db) (ev : EvidenceSource) (now : Instant)
    (tenantId actorId transferId : String) : Except GuidanceError ExplainabilityTimeline := do
  if isCanonicalUuid (toLower transferId) = false ∨ trimSpace tenantId = "" ∨
      trimSpace actorId = "" then .error .transferNotFound
  else
    let facts ← GuidanceRepository.explainTransfer s ev tenantId actorId (toLower transferId)
    pure
      { transferId := toLower transferId
        generatedAt := now
        complete := facts.stages.all fun st => st.state = .available && !st.truncated
        stages := facts.stages }

end LedgerSync
