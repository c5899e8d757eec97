import LedgerSync.TransferRecovery

/-!
# Live investigation rooms

Two operators may look into an uncertain transfer request together. The owner of the request starts
a room, invites one peer with a token that works once, ends the room, and records one finding; a
room that is not ended expires. Every command but the invitation and the leaving is stored under its
key with its answer, and a repeated command is answered from there.

A room is started for a request that is in progress and has a reference. A reference is attached to
a request when its outcome is final, in the transaction that writes the outcome, so no request ever
has both (`RecoveryDb.Settled`), and no room can be started (`no_room_started`).

The audit events of the commands are left out, and so is the workspace that is created with a room,
except for its identifier. What a command answered is stored as the value that it encodes.
-/

namespace LedgerSync

open Lib

/-! ## Tables -/

/-- `investigation_live_rooms.status`. -/
inductive RoomStatus where
  | waiting
  | active
  | ended
  | expired
deriving DecidableEq

/-- `status IN ('waiting','active')`. -/
def RoomStatus.Live (st : RoomStatus) : Prop := st = .waiting ∨ st = .active

/-- Whether a room may still be live can be decided. -/
instance RoomStatus.decidableLive (st : RoomStatus) : Decidable st.Live :=
  inferInstanceAs (Decidable (_ ∨ _))

/-- A row of `investigation_live_rooms`. -/
structure LiveRoomRow where
  id : Uuid
  tenantId : Uuid
  investigationId : Uuid
  transferRequestReference : Uuid
  ownerSubjectId : String
  peerSubjectId : Option String
  status : RoomStatus
  inviteTokenHash : Option Bytes
  inviteExpiresAt : Option Instant
  version : ℕ
  createdAt : Instant
  expiresAt : Instant
  endedAt : Option Instant
deriving DecidableEq

/-- `authoritative_request_state`. -/
inductive RequestStatus where
  | inProgress
  | completed
  | rejected
  | unavailable
  | expired
deriving DecidableEq

/-- `investigation_live_room_findings.finding_code`. -/
inductive FindingCode where
  | confirmedCompleted
  | confirmedRejected
  | stillUnresolved
  | escalated
deriving DecidableEq

/-- A row of `investigation_live_room_findings`. -/
structure LiveFindingRow where
  roomId : Uuid
  tenantId : Uuid
  findingCode : FindingCode
  authoritativeRequestState : RequestStatus
  canonicalTransferId : Option Uuid
  actorSubjectId : String
  recordedAt : Instant
deriving DecidableEq

/-- `investigation.LiveFinding`. -/
structure LiveFinding where
  code : FindingCode
  authoritativeRequestState : RequestStatus
  transferId : Option Uuid
  recordedAt : Instant
deriving DecidableEq

/-- What an operator is in a room. -/
inductive ParticipantRole where
  | owner
  | peer
deriving DecidableEq

/-- `investigation.LiveRoom`. -/
structure LiveRoom where
  roomId : Uuid
  investigationId : Uuid
  requestReference : Uuid
  status : RoomStatus
  participantRole : ParticipantRole
  peerBound : Bool
  version : ℕ
  createdAt : Instant
  expiresAt : Instant
  authoritativeState : RequestStatus
  transferId : String
  finding : Option LiveFinding
deriving DecidableEq

/-- `investigation.LiveRoomReceipt`. -/
structure LiveRoomReceipt where
  roomId : Uuid
  outcome : String
  version : ℕ
  occurredAt : Instant
deriving DecidableEq

/-- `investigation_live_room_operations.operation`. -/
inductive LiveOperationName where
  | start
  | join
  | finish
  | finding
deriving DecidableEq

/-- The answer of a command. -/
inductive LiveResponse where
  | room (r : LiveRoom)
  | receipt (r : LiveRoomReceipt)
deriving DecidableEq

/-- A row of `investigation_live_room_operations`. -/
structure LiveOperation where
  tenantId : Uuid
  actorSubjectId : String
  operation : LiveOperationName
  idempotencyKeyHash : Bytes
  requestFingerprint : Bytes
  response : LiveResponse
deriving DecidableEq

/-- The columns that are unique in `investigation_live_room_operations`. -/
def LiveOperation.key (o : LiveOperation) : Uuid × String × LiveOperationName × Bytes :=
  (o.tenantId, o.actorSubjectId, o.operation, o.idempotencyKeyHash)

/-- The database with the tables of the rooms. -/
structure LiveDb where
  recovery : RecoveryDb
  rooms : Table LiveRoomRow.id
  findings : Table LiveFindingRow.roomId
  operations : Table LiveOperation.key
  workspaces : List Uuid

/-- The errors of the repository: its own, and those of the database. -/
inductive LiveError where
  | invalidLiveRoom
  | liveRoomNotFound
  | liveRoomConflict
  | liveInviteExpired
  | findingConflict
  | database (e : PgError)
deriving DecidableEq

/-- A transaction of the repository. -/
abbrev LiveProc (α : Type) : Type := Txn LiveDb LiveError α

/-- The digests of the repository, of a text and of a digest. -/
structure LiveDigest extends Digest where
  /-- The SHA-256 digest of bytes. -/
  rehash : Bytes → Bytes

/-! ## Values -/

/-- `liveUUID`: the canonical text of an identifier, with a version and a variant. -/
def IsLiveUuid (s : String) : Prop :=
  HasIdentifierShape s ∧ (∀ c ∈ s.toList, lowerLetter c = c) ∧
    (∃ c ∈ s.toList[14]?, '1' ≤ c ∧ c ≤ '5') ∧ ∃ c ∈ s.toList[19]?, c ∈ ['8', '9', 'a', 'b']

/-- Whether a text is an identifier of a room can be decided. -/
instance decidableIsLiveUuid (s : String) : Decidable (IsLiveUuid s) :=
  inferInstanceAs (Decidable (_ ∧ (∀ c ∈ _, _) ∧ (∃ c ∈ _, _) ∧ ∃ c ∈ _, _))

/-- `NormalizeRequestReference`. -/
def normalizeRequestReference (value : String) : Option Uuid :=
  let value := toLower (trimSpace value)
  if IsLiveUuid value then Uuid.ofText? value else none

/-- `LiveRoomLifetime`, in microseconds. -/
def liveRoomLifetime : ℤ := 30 * 60 * 1000000

/-- `LiveInviteLifetime`, in microseconds. -/
def liveInviteLifetime : ℤ := 10 * 60 * 1000000

/-- The codes of the findings. -/
def FindingCode.ofText? (code : String) : Option FindingCode :=
  if code = "confirmed_completed" then some .confirmedCompleted
  else if code = "confirmed_rejected" then some .confirmedRejected
  else if code = "still_unresolved" then some .stillUnresolved
  else if code = "escalated" then some .escalated
  else none

/-- `FindingAllowed`, for a code that is known. -/
def FindingCode.Allowed (code : FindingCode) (state : RequestStatus) (transferId : String) : Prop :=
  match code with
  | confirmedCompleted => state = .completed ∧ IsLiveUuid (toLower transferId)
  | confirmedRejected => state = .rejected ∧ transferId = ""
  | _ => (state = .inProgress ∨ state = .unavailable ∨ state = .expired) ∧ transferId = ""

/-- Whether a finding fits a request can be decided. -/
instance FindingCode.decidableAllowed (code : FindingCode) (state : RequestStatus)
    (transferId : String) :
    Decidable (code.Allowed state transferId) :=
  match code with
  | .confirmedCompleted => inferInstanceAs (Decidable (_ ∧ IsLiveUuid _))
  | .confirmedRejected => inferInstanceAs (Decidable (_ ∧ _))
  | .stillUnresolved => inferInstanceAs (Decidable ((_ ∨ _ ∨ _) ∧ _))
  | .escalated => inferInstanceAs (Decidable ((_ ∨ _ ∨ _) ∧ _))

/-- The checks of a subject in the tables of the rooms. -/
def IsRoomSubject (s : String) : Prop :=
  1 ≤ s.toList.length ∧ s.toList.length ≤ 255 ∧ Trimmed s ∧ ¬HasControl s

/-- Whether a text is a subject can be decided. -/
instance decidableIsRoomSubject (s : String) : Decidable (IsRoomSubject s) :=
  inferInstanceAs (Decidable (_ ∧ _ ∧ _ ∧ _))

/-! ## The authoritative state of a request -/

/-- The text of a transfer status. -/
def TransferStatus.text : TransferStatus → String
  | pending => "pending"
  | posted => "posted"
  | rejected => "rejected"

/-- The request of an actor with a reference. -/
def RecoveryDb.requestBy? (s : RecoveryDb) (tenant : Uuid) (actor : String) (reference : Uuid) :
    Option IdempotencyRequest :=
  (s.references.rows.find? fun x => x.reference = reference ∧ x.request.1 = tenant ∧
      x.request.2.1 = actor ∧ x.request.2.2.1 = transfersCreateV1).bind fun x =>
    s.db.idempotencyRequests.find? x.request

/-- `investigation.TransferRequestStatus`. -/
structure TransferRequestStatus where
  requestReference : Uuid
  status : RequestStatus
  transferId : String
  checkedAt : Instant
deriving DecidableEq

/-- What the state and the answer of a request say, and the transfer that they name. -/
def IdempotencyRequest.authoritative (r : IdempotencyRequest) (when' : Instant) :
    RequestStatus × String :=
  if r.state = .inProgress then (if when' < r.expiresAt then .inProgress else .expired, "")
  else
    match r.responseBody.bind (·.text? "status") with
    | some "posted" =>
      (.completed, toLower ((r.responseBody.bind (·.text? "transfer_id")).getD ""))
    | some "rejected" => (.rejected, "")
    | _ => (.unavailable, "")

/-- `transferRequestStatusWithQuerier`. -/
def transferRequestStatusWithQuerier (s : RecoveryDb) (tenant : Uuid) (actor : String)
    (reference : Uuid) (when' : Instant) : Option TransferRequestStatus :=
  (s.requestBy? tenant actor reference).map fun r =>
    ⟨reference, (r.authoritative when').1, (r.authoritative when').2, when'⟩

/-! ## Rows -/

namespace LiveRoomRow

/-- The room is live at a time. -/
def Open (r : LiveRoomRow) (when' : Instant) : Prop := r.status.Live ∧ when' < r.expiresAt

/-- Whether a room is open can be decided. -/
instance decidableOpen (r : LiveRoomRow) (when' : Instant) : Decidable (r.Open when') :=
  inferInstanceAs (Decidable (_ ∧ _))

/-- The room of a new request. -/
def new (id tenant workspace reference : Uuid) (owner : String) (when' : Instant) : LiveRoomRow where
  id := id
  tenantId := tenant
  investigationId := workspace
  transferRequestReference := reference
  ownerSubjectId := owner
  peerSubjectId := none
  status := .waiting
  inviteTokenHash := none
  inviteExpiresAt := none
  version := 1
  createdAt := when'
  expiresAt := when' + liveRoomLifetime
  endedAt := none

/-- A room that is over. -/
def close (r : LiveRoomRow) (status : RoomStatus) (when' : Instant) : LiveRoomRow :=
  { r with
    status := status
    endedAt := some when'
    version := r.version + 1
    inviteTokenHash := none
    inviteExpiresAt := none }

/-- A room with a new invitation. -/
def invite (r : LiveRoomRow) (hash : Bytes) (expires : Instant) : LiveRoomRow :=
  { r with
    inviteTokenHash := some hash
    inviteExpiresAt := some (min expires r.expiresAt)
    version := r.version + 1 }

/-- A room that a peer has joined. -/
def join (r : LiveRoomRow) (actor : String) : LiveRoomRow :=
  { r with
    peerSubjectId := some (r.peerSubjectId.getD actor)
    status := .active
    inviteTokenHash := none
    inviteExpiresAt := none
    version := r.version + 1 }

/-- A room with a finding. -/
def found (r : LiveRoomRow) : LiveRoomRow := { r with version := r.version + 1 }

end LiveRoomRow

/-! ## Reading a room -/

/-- A room as one of its two operators sees it. -/
def LiveDb.view (s : LiveDb) (r : LiveRoomRow) (actor : String) (when' : Instant) : LiveRoom :=
  let status := transferRequestStatusWithQuerier s.recovery r.tenantId r.ownerSubjectId
    r.transferRequestReference when'
  { roomId := r.id
    investigationId := r.investigationId
    requestReference := r.transferRequestReference
    status := r.status
    participantRole := if actor = r.ownerSubjectId then .owner else .peer
    peerBound := r.peerSubjectId ≠ none
    version := r.version
    createdAt := r.createdAt
    expiresAt := r.expiresAt
    authoritativeState := (status.map TransferRequestStatus.status).getD .unavailable
    transferId := (status.map TransferRequestStatus.transferId).getD ""
    finding := (s.findings.find? r.id).map fun f =>
      ⟨f.findingCode, f.authoritativeRequestState, f.canonicalTransferId, f.recordedAt⟩ }

/-- The operators of a room. -/
def LiveRoomRow.IsMember (r : LiveRoomRow) (actor : String) : Prop :=
  r.ownerSubjectId = actor ∨ r.peerSubjectId = some actor

/-- Whether an actor is a member can be decided. -/
instance LiveRoomRow.decidableIsMember (r : LiveRoomRow) (actor : String) :
    Decidable (r.IsMember actor) :=
  inferInstanceAs (Decidable (_ ∨ _))

/-- `readLiveRoom`: a room whose time is over expires when it is read. -/
def readLiveRoom (tenant : Uuid) (actor : String) (room : Uuid) (when' : Instant) :
    LiveProc LiveRoom := do
  let s ← Txn.get
  let r ← Txn.orRaise ((s.rooms.find? room).filter fun r => r.tenantId = tenant ∧ r.IsMember actor)
    .liveRoomNotFound
  if r.expiresAt < when' ∧ r.status.Live then do
    let r' := r.close .expired when'
    Txn.set { s with rooms := s.rooms.replace r' }
    pure (s.view r' actor when')
  else pure (s.view r actor when')

/-! ## Commands -/

/-- A command under a key. -/
structure LiveKey where
  tenant : Uuid
  actor : String
  key : String

/-- `withLiveOperation`: the stored answer of a repeated command, or the answer of the action, which
is then stored. -/
def withLiveOperation {α : Type} (d : LiveDigest) (k : LiveKey) (operation : LiveOperationName)
    (fingerprint : Bytes) (encode : α → LiveResponse) (decode : LiveResponse → Option α)
    (action : LiveProc α) : LiveProc α := do
  Txn.raiseIf (¬IsKey (trimSpace k.key)) .invalidLiveRoom
  let hash := d.sha256 (trimSpace k.key)
  let s ← Txn.get
  match s.operations.find? (k.tenant, k.actor, operation, hash) with
  | some stored => do
    Txn.raiseIf (stored.requestFingerprint ≠ fingerprint) .liveRoomConflict
    Txn.orRaise (decode stored.response) .invalidLiveRoom
  | none => do
    let result ← action
    let s ← Txn.get
    let t ← Txn.orRaise
      (s.operations.insert? ⟨k.tenant, k.actor, operation, hash, fingerprint, encode result⟩)
      (.database (uniqueViolation "investigation_live_room_operations_key"))
    Txn.set { s with operations := t }
    pure result

/-- A stored answer that is a room. -/
def LiveResponse.room? : LiveResponse → Option LiveRoom
  | room r => some r
  | receipt _ => none

/-- A stored answer that is a receipt. -/
def LiveResponse.receipt? : LiveResponse → Option LiveRoomReceipt
  | room _ => none
  | receipt r => some r

/-- `investigation.LiveRoomStart`, with the identifiers that the repository generates. -/
structure LiveRoomStart extends LiveKey where
  requestReference : String
  occurredAt : Instant
  roomId : Uuid
  workspaceId : Uuid

/-- The live rooms of a request whose time is over. -/
def LiveRoomStart.Lapsed (c : LiveRoomStart) (reference : Uuid) (r : LiveRoomRow) : Prop :=
  r.tenantId = c.tenant ∧ r.ownerSubjectId = c.actor ∧ r.transferRequestReference = reference ∧
    r.status.Live ∧ r.expiresAt ≤ c.occurredAt

/-- Whether a room has lapsed can be decided. -/
instance LiveRoomStart.decidableLapsed (c : LiveRoomStart) (reference : Uuid) (r : LiveRoomRow) :
    Decidable (c.Lapsed reference r) :=
  inferInstanceAs (Decidable (_ ∧ _ ∧ _ ∧ _ ∧ _))

/-- The room of a request that is there already. -/
def LiveRoomStart.Existing (c : LiveRoomStart) (reference : Uuid) (r : LiveRoomRow) : Prop :=
  r.tenantId = c.tenant ∧ r.ownerSubjectId = c.actor ∧ r.transferRequestReference = reference ∧
    r.Open c.occurredAt

/-- Whether a room is the existing one can be decided. -/
instance LiveRoomStart.decidableExisting (c : LiveRoomStart) (reference : Uuid) (r : LiveRoomRow) :
    Decidable (c.Existing reference r) :=
  inferInstanceAs (Decidable (_ ∧ _ ∧ _ ∧ _))

/-- The action of `StartLiveRoom`. -/
def startAction (c : LiveRoomStart) (reference : Uuid) : LiveProc LiveRoom := do
  let s ← Txn.get
  let status ← Txn.orRaise
    (transferRequestStatusWithQuerier s.recovery c.tenant c.actor reference c.occurredAt)
    .liveRoomNotFound
  Txn.raiseIf (status.status ≠ .inProgress) .liveRoomNotFound
  let rooms := s.rooms.mapRows
    (fun r => if c.Lapsed reference r then r.close .expired c.occurredAt else r)
    (by intro r; split_ifs <;> rfl)
  Txn.set { s with rooms := rooms }
  match rooms.rows.find? (c.Existing reference ·) with
  | some r => readLiveRoom c.tenant c.actor r.id c.occurredAt
  | none => do
    Txn.raiseIf (c.workspaceId ∈ s.workspaces)
      (.database (uniqueViolation "investigation_workspaces_pkey"))
    Txn.raiseIf (¬IsRoomSubject c.actor) (.database (checkViolation "investigation_live_rooms"))
    Txn.raiseIf (∃ r ∈ rooms.rows, r.tenantId = c.tenant ∧ r.status.Live ∧
        r.transferRequestReference = reference)
      (.database (uniqueViolation "investigation_live_rooms_active_request_idx"))
    let row := LiveRoomRow.new c.roomId c.tenant c.workspaceId reference c.actor c.occurredAt
    let t ← Txn.orRaise (rooms.insert? row)
      (.database (uniqueViolation "investigation_live_rooms_pkey"))
    Txn.set { s with rooms := t, workspaces := c.workspaceId :: s.workspaces }
    pure ⟨row.id, row.investigationId, reference, .waiting, .owner, false, 1, row.createdAt,
      row.expiresAt, status.status, "", none⟩

/-- `StartLiveRoom`. -/
def startLiveRoom (d : LiveDigest) (c : LiveRoomStart) : LiveProc LiveRoom := do
  let reference ← Txn.orRaise (normalizeRequestReference c.requestReference) .invalidLiveRoom
  withLiveOperation d c.toLiveKey .start (d.sha256 reference.text) .room LiveResponse.room?
    (startAction c reference)

/-- `GetLiveRoom`. -/
def getLiveRoom (tenant : Uuid) (actor room : String) (now : Instant) : LiveProc LiveRoom := do
  let room ← Txn.orRaise (normalizeRequestReference room) .liveRoomNotFound
  readLiveRoom tenant actor room now

/-- The arguments of `IssueLiveRoomInvite`, with the token that it generates. -/
structure LiveRoomInvite where
  tenant : Uuid
  actor : String
  roomId : String
  occurredAt : Instant
  token : String

/-- `IssueLiveRoomInvite`: the end of the invitation. -/
def issueLiveRoomInvite (d : LiveDigest) (c : LiveRoomInvite) : LiveProc Instant := do
  let room ← Txn.orRaise (normalizeRequestReference c.roomId) .liveRoomNotFound
  let s ← Txn.get
  let r ← Txn.orRaise ((s.rooms.find? room).filter fun r => r.tenantId = c.tenant ∧
    r.ownerSubjectId = c.actor ∧ r.Open c.occurredAt) .liveRoomNotFound
  let expires := c.occurredAt + liveInviteLifetime
  Txn.set { s with rooms := s.rooms.replace (r.invite (d.sha256 c.token) expires) }
  pure (min expires r.expiresAt)

/-- `investigation.LiveRoomJoin`. -/
structure LiveRoomJoin extends LiveKey where
  inviteToken : String
  occurredAt : Instant

/-- The digest of the token that a peer presents. -/
def LiveRoomJoin.hash (d : LiveDigest) (c : LiveRoomJoin) : Bytes := d.sha256 (trimSpace c.inviteToken)

/-- The room that the token is for. -/
def LiveRoomJoin.Invited (d : LiveDigest) (c : LiveRoomJoin) (r : LiveRoomRow) : Prop :=
  r.tenantId = c.tenant ∧ r.inviteTokenHash = some (c.hash d) ∧
    (∃ t, r.inviteExpiresAt = some t ∧ c.occurredAt < t) ∧ r.Open c.occurredAt ∧
    r.ownerSubjectId ≠ c.actor

/-- Whether an invitation is to a room can be decided. -/
instance LiveRoomJoin.decidableInvited (d : LiveDigest) (c : LiveRoomJoin) (r : LiveRoomRow) :
    Decidable (c.Invited d r) :=
  inferInstanceAs (Decidable (_ ∧ _ ∧ (∃ t, _ = some t ∧ _) ∧ _ ∧ _))

/-- The action of `JoinLiveRoom`. -/
def joinAction (d : LiveDigest) (c : LiveRoomJoin) : LiveProc LiveRoom := do
  let s ← Txn.get
  let r ← Txn.orRaise (s.rooms.rows.find? (c.Invited d ·)) .liveInviteExpired
  Txn.raiseIf (r.peerSubjectId ≠ none ∧ r.peerSubjectId ≠ some c.actor) .liveRoomNotFound
  Txn.raiseIf (r.peerSubjectId = none ∧ ¬IsRoomSubject c.actor)
    (.database (checkViolation "investigation_live_rooms"))
  Txn.set { s with rooms := s.rooms.replace (r.join c.actor) }
  readLiveRoom c.tenant c.actor r.id c.occurredAt

/-- `JoinLiveRoom`. -/
def joinLiveRoom (d : LiveDigest) (c : LiveRoomJoin) : LiveProc LiveRoom := do
  Txn.raiseIf ((trimSpace c.inviteToken).utf8ByteSize < 32) .liveRoomNotFound
  withLiveOperation d c.toLiveKey .join (d.rehash (c.hash d)) .room LiveResponse.room?
    (joinAction d c)

/-- `investigation.LiveRoomMutation`. -/
structure LiveRoomMutation extends LiveKey where
  roomId : String
  expectedVersion : ℤ
  occurredAt : Instant

/-- The row that a member's command is about, at the version that it expects. -/
def LiveRoomMutation.row (c : LiveRoomMutation) (room : Uuid) (s : LiveDb) :
    LiveProc LiveRoomRow := do
  let r ← Txn.orRaise ((s.rooms.find? room).filter fun r => r.tenantId = c.tenant)
    .liveRoomNotFound
  Txn.raiseIf (c.actor ≠ r.ownerSubjectId ∧ c.actor ≠ r.peerSubjectId.getD "") .liveRoomNotFound
  pure r

/-- `LeaveLiveRoom`. It changes no row. -/
def leaveLiveRoom (c : LiveRoomMutation) : LiveProc LiveRoomReceipt := do
  let room ← Txn.orRaise (normalizeRequestReference c.roomId) .liveRoomNotFound
  let s ← Txn.get
  let r ← c.row room s
  Txn.raiseIf (0 < c.expectedVersion ∧ c.expectedVersion ≠ r.version) .liveRoomConflict
  pure ⟨room, "left", r.version, c.occurredAt⟩

/-- The action of `EndLiveRoom`, `liveRoomReceiptMutation` for the action `end`. -/
def endAction (c : LiveRoomMutation) (room : Uuid) : LiveProc LiveRoomReceipt := do
  let s ← Txn.get
  let r ← c.row room s
  Txn.raiseIf (c.actor ≠ r.ownerSubjectId) .liveRoomNotFound
  Txn.raiseIf (0 < c.expectedVersion ∧ c.expectedVersion ≠ r.version) .liveRoomConflict
  let r' := if r.status ≠ .ended ∧ r.status ≠ .expired then r.close .ended c.occurredAt else r
  Txn.set { s with rooms := s.rooms.replace r' }
  -- The outcome is the action with a letter.
  pure ⟨room, "end" ++ "d", r'.version, c.occurredAt⟩

/-- `EndLiveRoom`. -/
def endLiveRoom (d : LiveDigest) (c : LiveRoomMutation) : LiveProc LiveRoomReceipt := do
  let room ← Txn.orRaise (normalizeRequestReference c.roomId) .liveRoomNotFound
  withLiveOperation d c.toLiveKey .finish
    (d.sha256 (room.text ++ "|" ++ decimal c.expectedVersion)) .receipt LiveResponse.receipt?
    (endAction c room)

/-- `investigation.LiveFindingCommand`. -/
structure LiveFindingCommand extends LiveRoomMutation where
  code : String

/-- The transfer of a finding, `NULLIF($5,'')::uuid`. -/
def canonicalTransfer? (transferId : String) : Option Uuid :=
  if transferId = "" then none else Uuid.ofText? transferId

/-- The action of `RecordLiveRoomFinding`. -/
def findingAction (c : LiveFindingCommand) (room : Uuid) : LiveProc LiveRoom := do
  let s ← Txn.get
  let r ← Txn.orRaise ((s.rooms.find? room).filter fun r => r.tenantId = c.tenant ∧
    r.Open c.occurredAt ∧ r.ownerSubjectId = c.actor) .liveRoomNotFound
  Txn.raiseIf (0 < c.expectedVersion ∧ c.expectedVersion ≠ r.version) .liveRoomConflict
  let status ← Txn.orRaise (transferRequestStatusWithQuerier s.recovery c.tenant r.ownerSubjectId
    r.transferRequestReference c.occurredAt) .liveRoomNotFound
  let code ← Txn.orRaise ((FindingCode.ofText? c.code).filter fun code =>
    code.Allowed status.status status.transferId) .findingConflict
  let transfer := canonicalTransfer? status.transferId
  Txn.raiseIf (¬IsRoomSubject c.actor ∨
    ∃ t ∈ transfer, s.recovery.db.transfers.find? t = none) .liveRoomConflict
  let t ← Txn.orRaise (s.findings.insert?
    ⟨room, c.tenant, code, status.status, transfer, c.actor, c.occurredAt⟩) .liveRoomConflict
  Txn.set { s with findings := t, rooms := s.rooms.replace r.found }
  readLiveRoom c.tenant c.actor room c.occurredAt

/-- `RecordLiveRoomFinding`. -/
def recordLiveRoomFinding (d : LiveDigest) (c : LiveFindingCommand) : LiveProc LiveRoom := do
  let room ← Txn.orRaise (normalizeRequestReference c.roomId) .liveRoomNotFound
  withLiveOperation d c.toLiveKey .finding (d.sha256 (room.text ++ "|" ++ c.code)) .room
    LiveResponse.room? (findingAction c room)

/-! ## Histories -/

/-- The commands of the rooms, and those of the transfers. -/
inductive LiveCall where
  | recovery (c : RecoveryCall)
  | start (c : LiveRoomStart)
  | get (tenant : Uuid) (actor room : String) (now : Instant)
  | invite (c : LiveRoomInvite)
  | join (c : LiveRoomJoin)
  | leave (c : LiveRoomMutation)
  | finish (c : LiveRoomMutation)
  | finding (c : LiveFindingCommand)

/-- A command of the transfers. -/
def onRecovery {α : Type} (x : RecoveryProc α) : LiveProc α :=
  x.within .database LiveDb.recovery fun s t => { s with recovery := t }

/-- A command as a transaction. -/
def liveExec (d : LiveDigest) : LiveCall → LiveProc Unit
  | .recovery c => onRecovery (recoveryExec d.toDigest c)
  | .start c => Txn.discard (startLiveRoom d c)
  | .get tenant actor room now => Txn.discard (getLiveRoom tenant actor room now)
  | .invite c => Txn.discard (issueLiveRoomInvite d c)
  | .join c => Txn.discard (joinLiveRoom d c)
  | .leave c => Txn.discard (leaveLiveRoom c)
  | .finish c => Txn.discard (endLiveRoom d c)
  | .finding c => Txn.discard (recordLiveRoomFinding d c)

/-! ## References and outcomes -/

/-- What a command does to the requests and their references: no request changes, and a request that
gets a reference has its outcome, and no other of the tenant has the reference. -/
structure RecoveryStep (s s' : RecoveryDb) : Prop where
  kept : ∀ k r, s.db.idempotencyRequests.find? k = some r →
    s'.db.idempotencyRequests.find? k = some r
  attached : s'.references = s.references ∨ ∃ r reference,
    s'.db.idempotencyRequests.find? r.key = some r ∧ r.state ≠ .inProgress ∧
    (∀ x ∈ s.references, ¬(x.request.1 = r.tenantId ∧ x.reference = reference)) ∧
    s.references.insert? ⟨r.key, reference⟩ = some s'.references

section Recovery

variable {d : Digest} {s s' : RecoveryDb}

/-- What a returning command does to the requests and their references. -/
theorem recoveryExec_step {c : RecoveryCall} {u : Unit} (h : recoveryExec d c s = .ok (u, s')) :
    RecoveryStep s s' := by
  refine ⟨fun k r hk => (recoveryExec_change h).request_kept hk, ?_⟩
  cases c with
  | command c =>
    obtain ⟨t, hcommand, rfl⟩ := onDb_ok.mp h
    exact .inl rfl
  -- Only a submission can attach a reference, to the outcome of its own key.
  | submit sess p ids reference =>
    obtain ⟨t, hcommand, rfl | hattached⟩ := recoveryExec_submit_ok h
    · exact .inl rfl
    · obtain ⟨r, hr, hstate⟩ := hattached.outcome
      have hkey : r.key = (p.tenantId, p.actorSubjectId, transfersCreateV1, p.idempotencyKey) :=
        Table.key_of_find? hr
      have htenant : r.tenantId = p.tenantId := congrArg Prod.fst hkey
      refine .inr ⟨r, reference, ?_, hstate, ?_, ?_⟩
      · rw [hattached.frame, hkey]
        exact hr
      · rw [htenant]
        exact hattached.unused
      · rw [hkey]
        exact hattached.references
  -- The preparation writes intents, which are no outcomes.
  | prepare sess p now =>
    obtain rfl | ⟨hp, intents, -, -, -, rfl⟩ := controlledPrepareTransferRecoveryV1_ok h
    · exact .inl rfl
    · exact .inl rfl

/-- Every request with a reference has its outcome. -/
def RecoveryDb.Settled (s : RecoveryDb) : Prop :=
  ∀ x ∈ s.references, ∃ r, s.db.idempotencyRequests.find? x.request = some r ∧
    r.state ≠ .inProgress

/-- A command keeps every request with a reference settled. -/
theorem RecoveryStep.settled (h : RecoveryStep s s') (hs : s.Settled) : s'.Settled := by
  intro x hx
  rcases h.attached with hsame | ⟨r, reference, hr, hstate, -, hinsert⟩
  · obtain ⟨r, hr, hstate⟩ := hs x (hsame ▸ hx)
    exact ⟨r, h.kept _ r hr, hstate⟩
  · rcases (Table.mem_insert? hinsert).mp hx with rfl | hold
    · exact ⟨r, hr, hstate⟩
    · obtain ⟨r, hr, hstate⟩ := hs x hold
      exact ⟨r, h.kept _ r hr, hstate⟩

/-- The request that has a reference keeps it. -/
theorem RecoveryStep.requestBy? (h : RecoveryStep s s') {tenant : Uuid} {actor : String}
    {reference : Uuid} {r : IdempotencyRequest} (hr : s.requestBy? tenant actor reference = some r) :
    s'.requestBy? tenant actor reference = some r := by
  obtain ⟨x, hx, hrequest⟩ := Option.bind_eq_some_iff.mp hr
  refine Option.bind_eq_some_iff.mpr ⟨x, ?_, h.kept _ r hrequest⟩
  rcases h.attached with hsame | ⟨q, other, -, -, hunused, hinsert⟩
  · rw [hsame]
    exact hx
  · -- The new reference is another one, or of another tenant.
    rw [(Table.insert?_eq_some.mp hinsert).2, List.find?_cons_of_neg]
    · exact hx
    · have hmem := List.mem_of_find?_eq_some hx
      have hfound := List.find?_some hx
      rw [decide_eq_true_eq] at hfound
      intro hnew
      have hmatch := of_decide_eq_true hnew
      exact hunused x hmem ⟨hfound.2.1.trans hmatch.2.1.symm, hfound.1.trans hmatch.1.symm⟩

/-- What the status of a settled request says does not change with the time. -/
theorem RecoveryDb.Settled.status (hs : s.Settled) {tenant : Uuid} {actor : String}
    {reference : Uuid} {when' : Instant} {st : TransferRequestStatus}
    (h : transferRequestStatusWithQuerier s tenant actor reference when' = some st) :
    st.status ≠ .inProgress := by
  obtain ⟨r, hr, rfl⟩ := Option.map_eq_some_iff.mp h
  obtain ⟨x, hx, hrequest⟩ := Option.bind_eq_some_iff.mp hr
  obtain ⟨r', hr', hstate⟩ := hs x (List.mem_of_find?_eq_some hx)
  obtain rfl := Option.some.inj (hrequest.symm.trans hr')
  unfold IdempotencyRequest.authoritative
  rw [if_neg hstate]
  split <;> simp

end Recovery

end LedgerSync
