import LedgerSync.Documents
import LedgerSync.Lib.Batch
import LedgerSync.LiveRooms

/-!
# Investigation workspaces

An operator keeps the context of a case in a workspace, hands it to another operator, closes it and
reopens it. A workspace names one root record, and every command looks again whether its actor may
read that record. The start of a live room creates a workspace of its own.

The relationships of a root record are read by a transaction that comes before the one that creates
a workspace, so what it found is an argument here. The listing is a read of its own. Neither checks
the scope of its transaction.
-/

namespace LedgerSync

open Lib

/-! ## Values -/

/-- `SearchAccess`. -/
structure SearchAccess where
  accounts : Bool
  transfers : Bool
  funding : Bool
  events : Bool
  reconciliation : Bool
  corrections : Bool
deriving DecidableEq

namespace SearchAccess

/-- `Any`. -/
def any (access : SearchAccess) : Bool :=
  access.accounts || access.transfers || access.funding || access.events ||
    access.reconciliation || access.corrections

/-- Access to every domain. -/
def full : SearchAccess := ⟨true, true, true, true, true, true⟩

end SearchAccess

/-- `WorkspaceRecordType`. -/
inductive RecordType where
  | account
  | transfer
  | transferRequest
  | funding
  | event
  | reconciliationRun
  | reconciliationMismatch
  | correction
deriving DecidableEq

namespace RecordType

/-- The text of a type of records. -/
def text : RecordType → String
  | account => "account"
  | transfer => "transfer"
  | transferRequest => "transfer_request"
  | funding => "funding"
  | event => "event"
  | reconciliationRun => "reconciliation_run"
  | reconciliationMismatch => "reconciliation_mismatch"
  | correction => "correction"

/-- The types of records. -/
def all : List RecordType :=
  [account, transfer, transferRequest, funding, event, reconciliationRun, reconciliationMismatch,
    correction]

/-- The type that a text names. -/
def ofText? (s : String) : Option RecordType := all.find? fun t => t.text = s

/-- `WorkspaceRecordAllowed`. -/
def allowed (access : SearchAccess) : RecordType → Bool
  | account => access.accounts
  | transfer => access.transfers
  | transferRequest => access.transfers
  | funding => access.funding
  | event => access.events
  | reconciliationRun => access.reconciliation
  | reconciliationMismatch => access.reconciliation
  | correction => access.corrections

end RecordType

/-- `investigation_workspaces.status`. -/
inductive WorkspaceStatus where
  | opened
  | closed
deriving DecidableEq

/-- The text of a status. -/
def WorkspaceStatus.text : WorkspaceStatus → String
  | opened => "open"
  | closed => "closed"

/-- The audit events of a workspace. -/
inductive WorkspaceEvent where
  | created
  | handedOff
  | closed
  | reopened
deriving DecidableEq

/-- The text of an event. -/
def WorkspaceEvent.text : WorkspaceEvent → String
  | created => "investigation.workspace_created"
  | handedOff => "investigation.workspace_handed_off"
  | closed => "investigation.workspace_closed"
  | reopened => "investigation.workspace_reopened"

/-- `MaxInvestigationWorkspaces`. -/
def maxInvestigationWorkspaces : ℕ := 50

/-- `MaxWorkspaceReferences`. -/
def maxWorkspaceReferences : ℕ := 21

/-- `canonicalWorkspaceID`. -/
def IsCanonicalId (s : String) : Prop :=
  HasIdentifierShape s ∧ ∀ c ∈ s.toList, lowerLetter c = c

/-- Whether a text is a canonical identifier can be decided. -/
instance decidableIsCanonicalId (s : String) : Decidable (IsCanonicalId s) :=
  inferInstanceAs (Decidable (_ ∧ ∀ c ∈ _, _))

/-- The texts that `workspaceDisallowedTitle` looks for, without regard to case. A title has no
other white space than blanks where the pattern is reached. -/
def disallowedTitles : List String :=
  ["http://", "https://", "bearer ", "password", "secret", "token=", "token:", "apikey", "api_key",
    "api key", "api-key", "@"]

/-- A letter as a pattern without regard to case sees it. -/
def foldLetter (c : Char) : Char := if c = '\u017f' then 's' else lowerLetter c

/-- `NormalizeWorkspaceTitle`. -/
def IsWorkspaceTitle (s : String) : Prop :=
  s = trimSpace s ∧ 1 ≤ s.toList.length ∧ s.toList.length ≤ 80 ∧
    (∀ w ∈ disallowedTitles, ¬w.toList <:+: s.toList.map foldLetter) ∧
    ¬HasControl s ∧ ∀ c ∈ s.toList, c ≠ '<' ∧ c ≠ '>'

/-- Whether a text is a title can be decided. -/
instance decidableIsWorkspaceTitle (s : String) : Decidable (IsWorkspaceTitle s) :=
  inferInstanceAs (Decidable (_ ∧ _ ∧ _ ∧ (∀ w ∈ _, _) ∧ _ ∧ ∀ c ∈ _, _))

/-- `WorkspaceTaxonomy`. -/
def workspaceTaxonomies : List String :=
  ["account_state", "transfer_delivery", "funding", "reconciliation", "correction", "other"]

/-- `NormalizeWorkspaceSubject`. -/
def IsWorkspaceSubject (s : String) : Prop :=
  s = trimSpace s ∧ 1 ≤ s.toList.length ∧ s.toList.length ≤ 255 ∧ ¬HasControl s

/-- Whether a text is a subject can be decided. -/
instance decidableIsWorkspaceSubject (s : String) : Decidable (IsWorkspaceSubject s) :=
  inferInstanceAs (Decidable (_ ∧ _ ∧ _ ∧ _))

/-- `ValidWorkspaceRelationship`: `^[a-z][a-z0-9_]{1,63}$`. -/
def IsRelationship (s : String) : Prop := IsAuditName false 64 s ∧ 2 ≤ s.toList.length

/-- Whether a text is a relationship can be decided. -/
instance decidableIsRelationship (s : String) : Decidable (IsRelationship s) :=
  inferInstanceAs (Decidable (_ ∧ _))

/-- `workspaceReference`: a letter or a digit, and 7 to 127 characters that may also be one of five
signs. -/
def IsApprovedReference (s : String) : Prop :=
  8 ≤ s.toList.length ∧ s.toList.length ≤ 128 ∧
    (∀ c, s.toList.head? = some c → c.isAlphanum) ∧
    ∀ c ∈ s.toList, c.isAlphanum ∨ c ∈ ['.', '_', ':', '/', '-']

/-- Whether a text is an approved reference can be decided. -/
instance decidableIsApprovedReference (s : String) : Decidable (IsApprovedReference s) :=
  inferInstanceAs (Decidable (_ ∧ _ ∧ (∀ c, _ = some c → _) ∧ ∀ c ∈ _, _))

/-! ## Tables -/

/-- A row of `investigation_workspaces`. -/
structure WorkspaceRow where
  id : Uuid
  tenantId : Uuid
  ownerSubjectId : String
  title : String
  taxonomy : String
  status : WorkspaceStatus
  queryKind : String
  rootRecordType : RecordType
  queryValue : String
  rootRecordId : Uuid
  version : ℕ
  createdAt : Instant
  updatedAt : Instant
  closedAt : Option Instant
deriving DecidableEq

/-- A row of `investigation_workspace_references`. -/
structure WorkspaceReferenceRow where
  investigationId : Uuid
  tenantId : Uuid
  position : ℕ
  relationshipType : String
  source : Option (RecordType × Uuid)
  recordType : RecordType
  recordId : Uuid
  capturedAt : Instant
deriving DecidableEq

/-- The database with the tables of the workspaces. Of `reconciliation_runs` and of
`reconciliation_mismatches` only the tenant and the identifier of a row are read. -/
structure InvestigationDb where
  live : LiveDb
  reconciliationRuns : List (Uuid × Uuid)
  reconciliationMismatches : List (Uuid × Uuid)
  workspaces : Table WorkspaceRow.id
  references : List WorkspaceReferenceRow

/-- The tables of the ledger. -/
def InvestigationDb.ledger (s : InvestigationDb) : Db := s.live.recovery.db

/-- The errors of the repository: its own, those of the database, and those of the rooms. -/
inductive WorkspaceError where
  | invalidWorkspace
  | workspaceNotFound
  | workspaceVersion
  | workspaceLimit
  | workspaceState
  | database (e : PgError)
  | live (e : LiveError)

/-- A transaction of the repository. -/
abbrev InvestigationProc (α : Type) : Type := Txn InvestigationDb WorkspaceError α

/-- `authorizedRelationshipSourceWithQuerier`: the record is there, an account is a customer's and
the actor may read it, and a request is the actor's own. -/
def InvestigationDb.Authorized (s : InvestigationDb) (tenant : Uuid) (actor : String) :
    RecordType → Uuid → Prop
  | .account, id => ∃ a ∈ s.ledger.accounts.rows, a.tenantId = tenant ∧ a.id = id ∧
      a.kind = .customer ∧ ∃ o ∈ s.ledger.settings.accountOwners, o.tenantId = tenant ∧
        o.accountId = id ∧ o.subjectId = actor ∧ o.permission ∈ [.read, .debit]
  | .transfer, id => ∃ t ∈ s.ledger.transfers.rows, t.tenantId = tenant ∧ t.id = id
  | .transferRequest, id => ∃ x ∈ s.live.recovery.references.rows, x.request.1 = tenant ∧
      x.request.2.1 = actor ∧ x.reference = id
  | .funding, id => ∃ e ∈ s.ledger.fundingEvents.rows, e.tenantId = tenant ∧ e.id = id
  | .event, id => ∃ e ∈ s.ledger.outbox.rows, e.tenantId = tenant ∧ e.id = id
  | .reconciliationRun, id => (tenant, id) ∈ s.reconciliationRuns
  | .reconciliationMismatch, id => (tenant, id) ∈ s.reconciliationMismatches
  | .correction, id => ∃ c ∈ s.ledger.corrections.rows, c.tenantId = tenant ∧ c.id = id

/-- Whether an actor may see a record can be decided. -/
instance InvestigationDb.decidableAuthorized (s : InvestigationDb) (tenant : Uuid) (actor : String)
    (t : RecordType) (id : Uuid) : Decidable (s.Authorized tenant actor t id) := by
  cases t <;> unfold InvestigationDb.Authorized <;> infer_instance

/-! ## Listing -/

/-- A workspace that its owner is shown. -/
def InvestigationDb.Readable (s : InvestigationDb) (tenant : Uuid) (actor : String)
    (access : SearchAccess) (w : WorkspaceRow) : Prop :=
  w.tenantId = tenant ∧ w.ownerSubjectId = actor ∧ w.rootRecordType.allowed access = true ∧
    s.Authorized tenant actor w.rootRecordType w.rootRecordId

/-- Whether an actor may read a workspace can be decided. -/
instance InvestigationDb.decidableReadable (s : InvestigationDb) (tenant : Uuid) (actor : String)
    (access : SearchAccess) (w : WorkspaceRow) : Decidable (s.Readable tenant actor access w) :=
  inferInstanceAs (Decidable (_ ∧ _ ∧ _ ∧ _))

/-- `ORDER BY updated_at DESC,id DESC`. -/
def WorkspaceRow.listedBefore (w v : WorkspaceRow) : Bool :=
  decide (v.updatedAt < w.updatedAt ∨ (v.updatedAt = w.updatedAt ∧ v.id.toNat < w.id.toNat))

/-- `WorkspaceSummary`. -/
structure WorkspaceSummary where
  id : Uuid
  title : String
  taxonomy : String
  status : WorkspaceStatus
  version : String
  createdAt : Instant
  updatedAt : Instant
  closedAt : Option Instant
deriving DecidableEq

/-- The summary of a row. -/
def WorkspaceRow.summary (w : WorkspaceRow) : WorkspaceSummary :=
  ⟨w.id, w.title, w.taxonomy, w.status, decimal w.version, w.createdAt, w.updatedAt, w.closedAt⟩

/-- The rows of `ListWorkspaces`. -/
def InvestigationDb.listedRows (s : InvestigationDb) (tenant : Uuid) (actor : String)
    (access : SearchAccess) : List WorkspaceRow :=
  s.workspaces.batch (fun w => s.Readable tenant actor access w) (fun w v => !v.listedBefore w)
    maxInvestigationWorkspaces

/-- `ListWorkspaces`. -/
def listWorkspaces (s : InvestigationDb) (tenant : Uuid) (actor : String) (access : SearchAccess) :
    Except WorkspaceError (List WorkspaceSummary) :=
  if trimSpace actor = "" ∨ access.any = false then .error .invalidWorkspace
  else .ok ((s.listedRows tenant actor access).map WorkspaceRow.summary)

/-! ## Statements -/

/-- A procedure over the ledger. -/
def onLedgerDb {α : Type} (x : Proc α) : InvestigationProc α :=
  x.within .database InvestigationDb.ledger fun s t =>
    { s with live := { s.live with recovery := { s.live.recovery with db := t } } }

/-- The arguments that every command has. -/
structure WorkspaceScope where
  tenant : Uuid
  actor : String
  correlationId : Uuid
  access : SearchAccess
  occurredAt : Instant
  auditId : Uuid

/-- The audit event of a command. -/
def WorkspaceScope.auditEvent (c : WorkspaceScope) (event : WorkspaceEvent) (w : WorkspaceRow)
    (captured : ℕ) : AuditEvent where
  id := c.auditId
  tenantId := c.tenant
  actorSubjectId := some c.actor
  eventType := event.text
  targetType := "investigation_workspace"
  targetId := some w.id.text
  outcome := "succeeded"
  correlationId := c.correlationId
  metadata := .obj
    ((if event = .created then [("captured_reference_count", .str (decimal captured))] else []) ++
      [("status", .str w.status.text), ("taxonomy", .str w.taxonomy),
        ("workspace_version", .str (decimal w.version))])
  occurredAt := c.occurredAt

/-- `insertWorkspaceAudit`. -/
def insertWorkspaceAudit (c : WorkspaceScope) (event : WorkspaceEvent) (w : WorkspaceRow)
    (captured : ℕ) : InvestigationProc Unit :=
  onLedgerDb (controlledAppendAuditV1 ⟨c.tenant.text, c.actor, false⟩
    (c.auditEvent event w captured))

/-! ## Creating -/

/-- `investigation.Relationship`, as far as a workspace captures it. -/
structure RelatedRecord where
  relationshipType : String
  targetType : String
  targetId : String

/-- `investigation.WorkspaceCreate`, with the identifiers that the repository generates and what
`Related` found, where the actor may read the root record. -/
structure WorkspaceCreate extends WorkspaceScope where
  title : String
  taxonomy : String
  queryKind : String
  queryValue : String
  rootRecordType : String
  rootRecordId : String
  workspaceId : Uuid
  related : Option (List RelatedRecord)

/-- What a checked command creates. -/
structure WorkspaceDraft where
  rootRecordType : RecordType
  rootRecordId : Uuid
  queryValue : String

/-- `NormalizeWorkspaceCreate`. -/
def WorkspaceCreate.normalize? (c : WorkspaceCreate) : Option WorkspaceDraft :=
  let root := toLower c.rootRecordId
  if IsWorkspaceTitle c.title ∧ c.taxonomy ∈ workspaceTaxonomies ∧ IsCanonicalId root ∧
      c.queryValue = trimSpace c.queryValue ∧ 8 ≤ c.queryValue.utf8ByteSize ∧
      c.queryValue.utf8ByteSize ≤ 128 then
    ((RecordType.ofText? c.rootRecordType).filter fun t => t.allowed c.access).bind fun t =>
      (Uuid.ofText? root).bind fun id =>
        if c.queryKind = "immutable_id" then
          if toLower c.queryValue = root then some ⟨t, id, root⟩ else none
        else if c.queryKind = "approved_reference" then
          if IsApprovedReference c.queryValue then some ⟨t, id, c.queryValue⟩ else none
        else none
  else none

/-- The body of the loop of `capturedWorkspaceReferences`: a record of a known type that the actor
may read, with an identifier, that was not captured before. -/
def captureReference (c : WorkspaceCreate) (root : RecordType × Uuid)
    (captured : List WorkspaceReferenceRow) (r : RelatedRecord) : List WorkspaceReferenceRow :=
  match (RecordType.ofText? r.targetType).filter (fun t => t.allowed c.access),
      (if IsCanonicalId r.targetId then Uuid.ofText? r.targetId else none) with
  | some t, some id =>
    if captured.length < maxWorkspaceReferences ∧ IsRelationship r.relationshipType ∧
        ∀ x ∈ captured, (x.recordType, x.recordId) ≠ (t, id) then
      captured ++ [⟨c.workspaceId, c.tenant, captured.length, r.relationshipType, some root, t, id,
        c.occurredAt⟩]
    else captured
  | _, _ => captured

/-- `capturedWorkspaceReferences`. -/
def capturedWorkspaceReferences (c : WorkspaceCreate) (root : RecordType × Uuid)
    (related : List RelatedRecord) : List WorkspaceReferenceRow :=
  related.foldl (captureReference c root)
    [⟨c.workspaceId, c.tenant, 0, "root", none, root.1, root.2, c.occurredAt⟩]

/-- The workspace is an open one of the owner. -/
def WorkspaceRow.OpenFor (w : WorkspaceRow) (tenant : Uuid) (owner : String) : Prop :=
  w.tenantId = tenant ∧ w.ownerSubjectId = owner ∧ w.status = .opened

/-- Whether a row counts as open for an owner can be decided. -/
instance WorkspaceRow.decidableOpenFor (w : WorkspaceRow) (tenant : Uuid) (owner : String) :
    Decidable (w.OpenFor tenant owner) :=
  inferInstanceAs (Decidable (_ ∧ _ ∧ _))

/-- The open workspaces of an owner. -/
def InvestigationDb.openCount (s : InvestigationDb) (tenant : Uuid) (owner : String) : ℕ :=
  s.workspaces.rows.countP fun w => w.OpenFor tenant owner

/-- The row of a new workspace. -/
def WorkspaceCreate.row (c : WorkspaceCreate) (draft : WorkspaceDraft) : WorkspaceRow where
  id := c.workspaceId
  tenantId := c.tenant
  ownerSubjectId := c.actor
  title := c.title
  taxonomy := c.taxonomy
  status := .opened
  queryKind := c.queryKind
  rootRecordType := draft.rootRecordType
  queryValue := draft.queryValue
  rootRecordId := draft.rootRecordId
  version := 1
  createdAt := c.occurredAt
  updatedAt := c.occurredAt
  closedAt := none

/-- The insert into `investigation_workspaces`. -/
def insertWorkspace (row : WorkspaceRow) : InvestigationProc Unit := do
  let s ← Txn.get
  Txn.raiseIf (¬IsRoomSubject row.ownerSubjectId)
    (.database (checkViolation "investigation_workspaces_owner_subject_id_check"))
  Txn.raiseIf (row.tenantId ∉ s.ledger.settings.tenants)
    (.database ⟨"23503", "investigation_workspaces_tenant_id_fkey",
      "insert violates foreign key constraint"⟩)
  let t ← Txn.orRaise (s.workspaces.insert? row)
    (.database (uniqueViolation "investigation_workspaces_pkey"))
  Txn.set { s with workspaces := t }

/-- `CreateWorkspace`, up to the reading of the workspace that it answers with. -/
def createWorkspace (c : WorkspaceCreate) : InvestigationProc Uuid := do
  let draft ← Txn.orRaise c.normalize? .invalidWorkspace
  Txn.raiseIf (trimSpace c.actor = "") .invalidWorkspace
  let related ← Txn.orRaise c.related .workspaceNotFound
  let captured := capturedWorkspaceReferences c (draft.rootRecordType, draft.rootRecordId) related
  let s ← Txn.get
  Txn.raiseIf (maxInvestigationWorkspaces ≤ s.openCount c.tenant c.actor) .workspaceLimit
  insertWorkspace (c.row draft)
  let s ← Txn.get
  Txn.set { s with references := captured ++ s.references }
  insertWorkspaceAudit c.toWorkspaceScope .created (c.row draft) captured.length
  pure c.workspaceId

/-! ## Changing -/

/-- The command of `mutateWorkspace`. -/
structure WorkspaceMutation extends WorkspaceScope where
  investigationId : Uuid
  expectedVersion : ℤ

/-- `WorkspaceReceipt`. -/
structure WorkspaceReceipt where
  investigationId : Uuid
  outcome : WorkspaceEvent
  version : ℕ
  occurredAt : Instant

/-- What a command makes of a workspace. -/
inductive WorkspaceChange where
  | handOff (target : String)
  | close
  | reopen
deriving DecidableEq

namespace WorkspaceChange

/-- `eventType`. -/
def event : WorkspaceChange → WorkspaceEvent
  | handOff _ => .handedOff
  | close => .closed
  | reopen => .reopened

/-- `requiredStatus`. -/
def required : WorkspaceChange → WorkspaceStatus
  | reopen => .closed
  | _ => .opened

/-- The `UPDATE` of the row. -/
def apply (x : WorkspaceChange) (when' : Instant) (w : WorkspaceRow) : WorkspaceRow :=
  match x with
  | handOff target =>
    { w with ownerSubjectId := target, version := w.version + 1, updatedAt := when' }
  | close =>
    { w with status := .closed, closedAt := some when', version := w.version + 1, updatedAt := when' }
  | reopen =>
    { w with status := .opened, closedAt := none, version := w.version + 1, updatedAt := when' }

end WorkspaceChange

/-- A room of the workspace is active. -/
def InvestigationDb.LiveRoomActive (s : InvestigationDb) (tenant workspace : Uuid) (when' : Instant) :
    Prop :=
  ∃ r ∈ s.live.rooms.rows, r.tenantId = tenant ∧ r.investigationId = workspace ∧
    r.status = .active ∧ when' < r.expiresAt

/-- Whether a room is active on a workspace can be decided. -/
instance InvestigationDb.decidableLiveRoomActive (s : InvestigationDb) (tenant workspace : Uuid)
    (when' : Instant) : Decidable (s.LiveRoomActive tenant workspace when') :=
  inferInstanceAs (Decidable (∃ r ∈ _, _))

/-- `mutateWorkspace`. -/
def mutateWorkspace (c : WorkspaceMutation) (x : WorkspaceChange) :
    InvestigationProc WorkspaceReceipt := do
  let s ← Txn.get
  let w ← Txn.orRaise ((s.workspaces.find? c.investigationId).filter fun w =>
    w.tenantId = c.tenant ∧ w.ownerSubjectId = c.actor) .workspaceNotFound
  Txn.raiseIf (w.rootRecordType.allowed c.access = false) .workspaceNotFound
  Txn.raiseIf (¬s.Authorized c.tenant c.actor w.rootRecordType w.rootRecordId) .workspaceNotFound
  Txn.raiseIf ((w.version : ℤ) ≠ c.expectedVersion) .workspaceVersion
  Txn.raiseIf (w.status ≠ x.required) .workspaceState
  Txn.raiseIf (s.LiveRoomActive c.tenant c.investigationId c.occurredAt) .workspaceState
  Txn.raiseIf (2 ^ 63 ≤ w.version + 1) (.database outOfRange)
  let w' := x.apply c.occurredAt w
  Txn.set { s with workspaces := s.workspaces.replace w' }
  insertWorkspaceAudit c.toWorkspaceScope x.event w' 0
  pure ⟨c.investigationId, x.event, w'.version, c.occurredAt⟩

/-- The arguments of `HandoffWorkspace` and of `ChangeWorkspaceStatus` that both check. -/
structure WorkspaceCommand extends WorkspaceScope where
  investigationId : String
  expectedVersion : ℤ

/-- The checks of both. -/
def WorkspaceCommand.Valid (c : WorkspaceCommand) : Prop :=
  c.access.any = true ∧ IsCanonicalId c.investigationId ∧ 1 ≤ c.expectedVersion ∧
    trimSpace c.actor ≠ ""

/-- Whether a command is valid can be decided. -/
instance WorkspaceCommand.decidableValid (c : WorkspaceCommand) : Decidable c.Valid :=
  inferInstanceAs (Decidable (_ ∧ _ ∧ _ ∧ _))

/-- The mutation of a checked command. -/
def WorkspaceCommand.mutation? (c : WorkspaceCommand) : Option WorkspaceMutation :=
  if c.Valid then
    (Uuid.ofText? c.investigationId).map fun id => ⟨c.toWorkspaceScope, id, c.expectedVersion⟩
  else none

/-- `HandoffWorkspace`. -/
def handoffWorkspace (c : WorkspaceCommand) (target : String) :
    InvestigationProc WorkspaceReceipt := do
  Txn.raiseIf (¬IsWorkspaceSubject target ∨ target = c.actor) .invalidWorkspace
  let m ← Txn.orRaise c.mutation? .invalidWorkspace
  mutateWorkspace m (.handOff target)

/-- `ChangeWorkspaceStatus`. -/
def changeWorkspaceStatus (c : WorkspaceCommand) (targetStatus : String) :
    InvestigationProc WorkspaceReceipt := do
  Txn.raiseIf (targetStatus ≠ "open" ∧ targetStatus ≠ "closed") .invalidWorkspace
  let m ← Txn.orRaise c.mutation? .invalidWorkspace
  mutateWorkspace m (if targetStatus = "open" then .reopen else .close)

/-! ## Rooms -/

/-- A command of the rooms. They know a workspace by its identifier. -/
def onLive {α : Type} (x : LiveProc α) : InvestigationProc α :=
  x.within .live (fun s => { s.live with workspaces := s.workspaces.rows.map WorkspaceRow.id })
    fun s t => { s with live := t }

/-- The workspace of a new room. -/
def LiveRoomStart.workspace (c : LiveRoomStart) (reference : Uuid) : WorkspaceRow where
  id := c.workspaceId
  tenantId := c.tenant
  ownerSubjectId := c.actor
  title := "Uncertain transfer request"
  taxonomy := "transfer_delivery"
  status := .opened
  queryKind := "request_reference"
  rootRecordType := .transferRequest
  queryValue := reference.text
  rootRecordId := reference
  version := 1
  createdAt := c.occurredAt
  updatedAt := c.occurredAt
  closedAt := none

/-- `StartLiveRoom` with the workspace that it creates for a new room. -/
def startLiveRoomWorkspace (d : LiveDigest) (c : LiveRoomStart) : InvestigationProc LiveRoom := do
  let room ← onLive (startLiveRoom d c)
  let s ← Txn.get
  if c.workspaceId ∈ s.live.workspaces ∧ s.workspaces.find? c.workspaceId = none then do
    insertWorkspace (c.workspace room.requestReference)
    let s ← Txn.get
    Txn.set { s with references :=
      ⟨c.workspaceId, c.tenant, 0, "root", none, .transferRequest, room.requestReference,
        c.occurredAt⟩ :: s.references }
    pure room
  else pure room

/-! ## Histories -/

/-- The commands of the workspaces, and those of the rooms. -/
inductive InvestigationCall where
  | create (c : WorkspaceCreate)
  | handoff (c : WorkspaceCommand) (target : String)
  | status (c : WorkspaceCommand) (target : String)
  | live (c : LiveCall)

/-- A command as a transaction. -/
def investigationExec (d : LiveDigest) : InvestigationCall → InvestigationProc Unit
  | .create c => Txn.discard (createWorkspace c)
  | .handoff c target => Txn.discard (handoffWorkspace c target)
  | .status c target => Txn.discard (changeWorkspaceStatus c target)
  | .live (.start c) => Txn.discard (startLiveRoomWorkspace d c)
  | .live c => onLive (liveExec d c)

end LedgerSync
