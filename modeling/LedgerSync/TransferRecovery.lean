import LedgerSync.Idempotency
import LedgerSync.Money

/-!
# Recovery intents

An operator saves the intent of a transfer, under a reference of its own, before the transfer is
submitted. The intent and the outcome of the submission are written by different transactions and
belong together by the idempotency key alone: a recovery shows the outcome under the intent's key,
and submits the intent again under it.

Preparing an intent looks at an outcome that is there already. A submission does not look at
intents, so the outcome that is joined to an intent is that of another payment when another payment
was submitted under its key (`RecoveryCall.Agrees`).
-/

namespace LedgerSync

open Lib

/-! ## Tables -/

/-- A row of `transfer_recovery_intents`. -/
structure RecoveryIntent where
  tenantId : Uuid
  actorSubjectId : String
  requestReference : Uuid
  idempotencyKey : String
  sourceAccountId : Uuid
  destinationAccountId : Uuid
  currency : String
  amount : Bigint
  requestFingerprint : Bytes
  createdAt : Instant
  /-- `CHECK (idempotency_key ~ '^[!-~]{16,255}$')`. -/
  key_shape : IsKey idempotencyKey
  /-- `CHECK (currency ~ '^[A-Z]{3}$')`. -/
  currency_shape : IsCurrency currency
  /-- `CHECK (amount_minor > 0)`. -/
  amount_pos : 0 < (amount : ℤ)
  /-- `CHECK (source_account_id <> destination_account_id)`. -/
  distinct : sourceAccountId ≠ destinationAccountId

namespace RecoveryIntent

/-- The primary key of `transfer_recovery_intents`. -/
def key (i : RecoveryIntent) : Uuid × String × Uuid :=
  (i.tenantId, i.actorSubjectId, i.requestReference)

/-- The key of the outcome that belongs to an intent. -/
def requestKey (i : RecoveryIntent) : Uuid × String × String × String :=
  (i.tenantId, i.actorSubjectId, transfersCreateV1, i.idempotencyKey)

end RecoveryIntent

/-- The column `request_reference` of `idempotency_requests`, where it is not null. -/
structure RequestReference where
  request : Uuid × String × String × String
  reference : Uuid

/-- The database with the tables of the recovery. -/
structure RecoveryDb where
  db : Db
  references : Table RequestReference.request
  intents : Table RecoveryIntent.key

/-- A stored procedure over it. -/
abbrev RecoveryProc (α : Type) : Type := Txn RecoveryDb PgError α

/-- A procedure that does not use the tables of the recovery. -/
def onDb {α : Type} (x : Proc α) : RecoveryProc α :=
  x.zoom RecoveryDb.db fun s t => { s with db := t }

/-- A procedure of the ledger returns on the whole when it returns on the ledger. -/
theorem onDb_ok {α : Type} {x : Proc α} {s s' : RecoveryDb} {a : α} :
    onDb x s = .ok (a, s') ↔ ∃ t, x s.db = .ok (a, t) ∧ s' = { s with db := t } :=
  Txn.zoom_ok

/-! ## Saving an intent -/

/-- The arguments of `controlled_prepare_transfer_recovery_v1`. -/
structure PrepareRequest where
  tenant : Uuid
  actor : String
  reference : Uuid
  key : String
  source : Uuid
  destination : Uuid
  currency : String
  amount : Bigint
  fingerprint : Bytes

/-- The text whose digest is the fingerprint of a payment. -/
def paymentText (tenant : Uuid) (actor : String) (source destination : Uuid) (currency : String)
    (amount : Bigint) : String :=
  "\n".intercalate [tenant.text, actor, transfersCreateV1, source.text, destination.text, currency,
    amount.text]

/-- The text of an intent. -/
def RecoveryIntent.canonical (i : RecoveryIntent) : String :=
  paymentText i.tenantId i.actorSubjectId i.sourceAccountId i.destinationAccountId i.currency i.amount

/-- The text of a transfer. -/
def Transfer.canonical (x : Transfer) : String :=
  paymentText x.tenantId x.actorSubjectId x.debitAccountId x.creditAccountId x.currency x.amount

namespace PrepareRequest

/-- The input check. -/
def WellFormed (d : Digest) (p : PrepareRequest) : Prop :=
  IsKey p.key ∧ IsActor p.actor ∧ p.actor.toList.length ≤ 256 ∧ p.source ≠ p.destination ∧
    0 < (p.amount : ℤ) ∧ IsCurrency p.currency ∧
    p.fingerprint =
      d.sha256 (paymentText p.tenant p.actor p.source p.destination p.currency p.amount)

/-- Whether a request is well formed can be decided. -/
instance (d : Digest) (p : PrepareRequest) : Decidable (p.WellFormed d) :=
  inferInstanceAs (Decidable (_ ∧ _ ∧ _ ∧ _ ∧ _ ∧ _ ∧ _))

/-- The row of an intent. -/
def intent {d : Digest} (p : PrepareRequest) (h : p.WellFormed d) (now : Instant) :
    RecoveryIntent where
  tenantId := p.tenant
  actorSubjectId := p.actor
  requestReference := p.reference
  idempotencyKey := p.key
  sourceAccountId := p.source
  destinationAccountId := p.destination
  currency := p.currency
  amount := p.amount
  requestFingerprint := p.fingerprint
  createdAt := now
  key_shape := h.1
  currency_shape := h.2.2.2.2.2.1
  amount_pos := h.2.2.2.2.1
  distinct := h.2.2.2.1

/-- The caller's authority: a role, the right to debit the source and to credit the destination. -/
def Authorized (p : PrepareRequest) (c : Settings) : Prop :=
  c.HasRole p.tenant p.actor [.operator, .finance] ∧ c.OwnsDebit p.tenant p.source p.actor ∧
    c.MayCredit p.tenant p.destination p.actor

/-- Whether a request is authorized can be decided. -/
instance (p : PrepareRequest) (c : Settings) : Decidable (p.Authorized c) :=
  inferInstanceAs (Decidable (_ ∧ _ ∧ _))

/-- A stored intent of the caller has the key or the reference. -/
def Meets (p : PrepareRequest) (i : RecoveryIntent) : Prop :=
  i.tenantId = p.tenant ∧ i.actorSubjectId = p.actor ∧
    (i.idempotencyKey = p.key ∨ i.requestReference = p.reference)

/-- Whether a request meets an intent can be decided. -/
instance (p : PrepareRequest) (i : RecoveryIntent) : Decidable (p.Meets i) :=
  inferInstanceAs (Decidable (_ ∧ _ ∧ _))

/-- An outcome under the key is of another payment, or has another reference. -/
def OutcomeConflicts (p : PrepareRequest) (s : RecoveryDb) : Prop :=
  ∃ r ∈ s.db.idempotencyRequests.find? (p.tenant, p.actor, transfersCreateV1, p.key),
    r.requestFingerprint ≠ p.fingerprint ∨
      ∃ x ∈ s.references.find? r.key, x.reference ≠ p.reference

/-- Whether an outcome conflicts with a request can be decided. -/
instance (p : PrepareRequest) (s : RecoveryDb) : Decidable (p.OutcomeConflicts s) :=
  inferInstanceAs (Decidable (∃ r ∈ _, _))

/-- The tenant and the accounts of the foreign keys are there. -/
def Referenced (p : PrepareRequest) (s : Db) : Prop :=
  p.tenant ∈ s.settings.tenants ∧
    (∃ a ∈ s.accounts.find? p.source, a.tenantId = p.tenant) ∧
    ∃ a ∈ s.accounts.find? p.destination, a.tenantId = p.tenant

/-- Whether a request has a reference can be decided. -/
instance (p : PrepareRequest) (s : Db) : Decidable (p.Referenced s) :=
  inferInstanceAs (Decidable (_ ∧ (∃ a ∈ _, _) ∧ ∃ a ∈ _, _))

end PrepareRequest

/-- The error of an intent that another intent or outcome stands against. -/
def recoveryConflict (message : String) : PgError :=
  ⟨"23505", "controlled_transfer_idempotency", message⟩

/-- `controlled_prepare_transfer_recovery_v1`. -/
def controlledPrepareTransferRecoveryV1 (d : Digest) (sess : Session) (p : PrepareRequest)
    (now : Instant) : RecoveryProc Unit := do
  let s ← Txn.get
  Txn.raiseIf (¬sess.Allows p.tenant ∨ p.actor ≠ sess.actorId)
    ⟨"42501", "controlled_transfer_actor", "controlled command scope denied"⟩
  if hp : p.WellFormed d then do
    Txn.raiseIf (¬p.Authorized s.db.settings)
      ⟨"42501", "controlled_transfer_actor", "recovery intent authorization denied"⟩
    match s.intents.rows.find? (p.Meets ·) with
    | some i =>
      Txn.raiseIf (i.idempotencyKey ≠ p.key ∨ i.requestReference ≠ p.reference ∨
        i.requestFingerprint ≠ p.fingerprint) (recoveryConflict "recovery intent conflict")
    | none => do
      Txn.raiseIf (p.OutcomeConflicts s) (recoveryConflict "recovery outcome conflict")
      Txn.raiseIf (¬p.Referenced s.db) ⟨"23503", "transfer_recovery_intents",
        "insert violates foreign key constraint"⟩
      let intents ← Txn.orRaise (s.intents.insert? (p.intent hp now))
        (uniqueViolation "recovery_reference_unique")
      Txn.set { s with intents := intents }
  else Txn.raise ⟨"22023", "controlled_transfer_input", "invalid recovery intent"⟩

/-- What a returning call did: nothing, for an intent that is there, or a new intent. -/
theorem controlledPrepareTransferRecoveryV1_ok {d : Digest} {sess : Session} {p : PrepareRequest}
    {now : Instant} {s s' : RecoveryDb} {u : Unit}
    (h : controlledPrepareTransferRecoveryV1 d sess p now s = .ok (u, s')) :
    s' = s ∨ ∃ (hp : p.WellFormed d) (intents : Table RecoveryIntent.key),
      (∀ i ∈ s.intents, ¬p.Meets i) ∧ ¬p.OutcomeConflicts s ∧
        s.intents.insert? (p.intent hp now) = some intents ∧ s' = { s with intents := intents } := by
  simp only [controlledPrepareTransferRecoveryV1, Txn.get_bind_ok, Txn.raiseIf_bind_ok] at h
  obtain ⟨-, h⟩ := h
  split at h
  · next hp =>
    obtain ⟨-, h⟩ := Txn.raiseIf_bind_ok.mp h
    rcases hfind : s.intents.rows.find? (p.Meets ·) with _ | i
    · rw [hfind] at h
      simp only [Txn.raiseIf_bind_ok, Txn.orRaise_bind_ok, Txn.set_ok] at h
      obtain ⟨houtcome, -, intents, hinsert, rfl⟩ := h
      refine .inr ⟨hp, intents, fun i hi hmeets => ?_, houtcome, hinsert, rfl⟩
      exact absurd (decide_eq_true hmeets) (List.find?_eq_none.mp hfind i hi)
    · rw [hfind] at h
      exact .inl (Txn.raiseIf_ok.mp h).2.symm
  · simp at h

/-! ## Submitting with a reference -/

/-- The error of a reference that does not fit the outcome. -/
def referenceMismatch : PgError :=
  ⟨"23505", "controlled_transfer_request_reference",
    "transfer request reference does not match the retained idempotency outcome"⟩

/-- `controlled_attach_transfer_request_reference_v1`. -/
def controlledAttachTransferRequestReferenceV1 (sess : Session) (tenant : Uuid)
    (actor key : String) (fingerprint : Bytes) (reference : Uuid) : RecoveryProc Unit := do
  let s ← Txn.get
  Txn.raiseIf (¬sess.Allows tenant ∨ actor ≠ sess.actorId)
    ⟨"42501", "controlled_transfer_actor", "controlled command scope denied"⟩
  let r ← Txn.orRaise (s.db.idempotencyRequests.find? (tenant, actor, transfersCreateV1, key))
    referenceMismatch
  Txn.raiseIf (r.requestFingerprint ≠ fingerprint) referenceMismatch
  match s.references.find? r.key with
  | some x => Txn.raiseIf (x.reference ≠ reference) referenceMismatch
  | none => do
    Txn.raiseIf (r.state = .inProgress) ⟨"55000", "",
      "idempotency request reference changes must preserve every outcome field"⟩
    Txn.raiseIf (∃ x ∈ s.references.rows, x.request.1 = tenant ∧ x.reference = reference)
      (uniqueViolation "idempotency_requests_tenant_request_reference_idx")
    let references ← Txn.orRaise (s.references.insert? ⟨r.key, reference⟩)
      (uniqueViolation "idempotency_requests_pkey")
    Txn.set { s with references := references }

/-- What an attachment does: it gives its reference to the outcome under its key. -/
structure ReferenceAttached (tenant : Uuid) (actor key : String) (reference : Uuid)
    (s s' : RecoveryDb) : Prop where
  outcome : ∃ r, s.db.idempotencyRequests.find? (tenant, actor, transfersCreateV1, key) = some r ∧
    r.state ≠ .inProgress
  unused : ∀ x ∈ s.references, ¬(x.request.1 = tenant ∧ x.reference = reference)
  references : s.references.insert? ⟨(tenant, actor, transfersCreateV1, key), reference⟩ =
    some s'.references
  frame : s' = { s with references := s'.references }

/-- An attachment that returns finds its reference there, or attaches it. -/
theorem controlledAttachTransferRequestReferenceV1_ok {sess : Session} {tenant : Uuid}
    {actor key : String} {fingerprint : Bytes} {reference : Uuid} {s s' : RecoveryDb} {u : Unit}
    (h : controlledAttachTransferRequestReferenceV1 sess tenant actor key fingerprint reference s =
      .ok (u, s')) : s' = s ∨ ReferenceAttached tenant actor key reference s s' := by
  simp only [controlledAttachTransferRequestReferenceV1, Txn.get_bind_ok, Txn.raiseIf_bind_ok,
    Txn.orRaise_bind_ok] at h
  obtain ⟨-, r, hr, -, h⟩ := h
  have hkey : r.key = (tenant, actor, transfersCreateV1, key) := Table.key_of_find? hr
  rcases hfind : s.references.find? r.key with _ | x
  · rw [hfind] at h
    simp only [Txn.raiseIf_bind_ok, Txn.orRaise_bind_ok, Txn.set_ok] at h
    obtain ⟨hstate, hunused, references, hinsert, rfl⟩ := h
    rw [hkey] at hinsert
    exact .inr ⟨⟨r, hr, hstate⟩, fun x hx hsame => hunused ⟨x, hx, hsame⟩, hinsert, rfl⟩
  · rw [hfind] at h
    exact .inl (Txn.raiseIf_ok.mp h).2.symm

/-- The transaction of `TransferRepository.Submit` for a command with a reference. -/
def submitWithReference (d : Digest) (sess : Session) (p : TransferRequest) (ids : TransferIds)
    (reference : Uuid) : RecoveryProc (Json × Bool) := do
  let outcome ← onDb (controlledSubmitTransferV1 d sess p ids)
  controlledAttachTransferRequestReferenceV1 sess p.tenantId p.actorSubjectId p.idempotencyKey
    p.requestFingerprint reference
  pure outcome

/-! ## Recovering -/

/-- `transfers.RecoveryIntent`: what a recovery shows of an intent. -/
structure RecoveryView where
  requestReference : String
  sourceAccountId : String
  destinationAccountId : String
  currency : String
  amountMinor : String
  createdAt : Instant
  idempotencyKey : String
  state : String
  transferId : String

/-- The outcome that is joined to an intent. -/
def RecoveryDb.outcome? (s : RecoveryDb) (i : RecoveryIntent) : Option IdempotencyRequest :=
  s.db.idempotencyRequests.find? i.requestKey

/-- The outcome of a transfer as a recovery shows it. -/
def shownState (outcome : Option IdempotencyRequest) : String :=
  match outcome with
  | some r =>
    if r.state = .completed ∨ r.state = .failed then
      (r.responseBody.bind (·.text? "status")).getD "unresolved"
    else "unresolved"
  | none => "unresolved"

/-- The columns of `recoverySelect`. -/
def RecoveryIntent.view (i : RecoveryIntent) (outcome : Option IdempotencyRequest) :
    RecoveryView where
  requestReference := i.requestReference.text
  sourceAccountId := i.sourceAccountId.text
  destinationAccountId := i.destinationAccountId.text
  currency := i.currency
  amountMinor := i.amount.text
  createdAt := i.createdAt
  idempotencyKey := i.idempotencyKey
  state := shownState outcome
  transferId := ((outcome.bind (·.responseBody)).bind (·.text? "transfer_id")).getD ""

/-- The intents that `recoverySelect` shows to an actor: its own, while it has a role and authority
over the accounts. -/
def RecoveryDb.visible (s : RecoveryDb) (tenant : Uuid) (actor : String) : List RecoveryIntent :=
  s.intents.rows.filter fun i =>
    i.tenantId = tenant ∧ i.actorSubjectId = actor ∧
      (∃ r ∈ s.db.settings.subjectRoles, r.tenantId = tenant ∧ r.subjectId = actor) ∧
      (∃ o ∈ s.db.settings.accountOwners, o.tenantId = tenant ∧ o.accountId = i.sourceAccountId ∧
        o.subjectId = actor ∧ (o.permission = .read ∨ o.permission = .debit)) ∧
      s.db.settings.MayCredit tenant i.destinationAccountId actor

/-- `GetRecovery`. -/
def RecoveryDb.getRecovery (s : RecoveryDb) (tenant : Uuid) (actor : String) (reference : Uuid) :
    Option RecoveryView :=
  ((s.visible tenant actor).find? (·.requestReference = reference)).map fun i =>
    i.view (s.outcome? i)

/-- `transfers.Command`, as far as its fingerprint and its identity go. -/
structure TransferCommand where
  tenantId : Uuid
  actorSubjectId : String
  debitAccountId : Uuid
  creditAccountId : Uuid
  amount : Money
  idempotencyKey : String
  requestReference : String

/-- `strings.TrimPrefix`. -/
def trimPrefix (s lead : String) : String :=
  if lead.toList <+: s.toList then String.ofList (s.toList.drop lead.toList.length) else s

/-- The command that `Recover` builds from what is shown: the amount is written out and parsed again
by `submitAuthenticated`, which then computes the fingerprint. -/
def recoveredCommand (tenant : Uuid) (actor : String) (item : RecoveryView) :
    Option TransferCommand := do
  let minor ← (parseInt64 item.amountMinor).bind Bigint.ofInt?
  let exact ← Money.new item.currency minor
  let amount ← Money.parse item.currency (trimPrefix exact.string (item.currency ++ " "))
  let source ← parseIdentifier item.sourceAccountId
  let destination ← parseIdentifier item.destinationAccountId
  if 0 < (amount.minor : ℤ) ∧ source ≠ destination then
    some ⟨tenant, actor, source, destination, amount, item.idempotencyKey, item.requestReference⟩
  else none

/-- `Recover`: the command that it submits. -/
def RecoveryDb.recover (s : RecoveryDb) (tenant : Uuid) (actor : String) (reference : Uuid) :
    Option TransferCommand :=
  (s.getRecovery tenant actor reference).bind (recoveredCommand tenant actor)

/-- `transfers.Fingerprint`. -/
def TransferCommand.fingerprint (d : Digest) (c : TransferCommand) : Bytes :=
  d.sha256 (paymentText c.tenantId c.actorSubjectId c.debitAccountId c.creditAccountId
    c.amount.currency.code c.amount.minor)

/-! ## The calls -/

/-- The calls that intents and outcomes are made by. The preparation and the submission of a
recovery are calls like any other. -/
inductive RecoveryCall where
  | command (c : Call)
  | submit (sess : Session) (p : TransferRequest) (ids : TransferIds) (reference : Uuid)
  | prepare (sess : Session) (p : PrepareRequest) (now : Instant)

/-- A call as a transaction. -/
def recoveryExec (d : Digest) : RecoveryCall → RecoveryProc Unit
  | .command c => onDb (exec d c)
  | .submit sess p ids reference => Txn.discard (submitWithReference d sess p ids reference)
  | .prepare sess p now => controlledPrepareTransferRecoveryV1 d sess p now

/-- A submission with a reference that returns is a submission, and then the reference is attached
or was there. -/
theorem recoveryExec_submit_ok {d : Digest} {sess : Session} {p : TransferRequest}
    {ids : TransferIds} {reference : Uuid} {s s' : RecoveryDb} {u : Unit}
    (h : recoveryExec d (.submit sess p ids reference) s = .ok (u, s')) :
    ∃ t, exec d (.submitTransfer sess p ids) s.db = .ok ((), t) ∧ (s' = { s with db := t } ∨
      ReferenceAttached p.tenantId p.actorSubjectId p.idempotencyKey reference
        { s with db := t } s') := by
  obtain ⟨outcome, hsubmit⟩ := Txn.discard_ok.mp h
  obtain ⟨body, s₁, hfirst, hrest⟩ := Txn.bind_ok.mp hsubmit
  obtain ⟨t, hdb, rfl⟩ := onDb_ok.mp hfirst
  obtain ⟨v, s₂, hattach, hpure⟩ := Txn.bind_ok.mp hrest
  obtain ⟨-, rfl⟩ := Txn.pure_ok.mp hpure
  exact ⟨t, Txn.discard_ok.mpr ⟨body, hdb⟩, controlledAttachTransferRequestReferenceV1_ok hattach⟩

/-- A returning call changes the ledger as a call of the ledger does. -/
theorem recoveryExec_change {d : Digest} {c : RecoveryCall} {s s' : RecoveryDb} {u : Unit}
    (h : recoveryExec d c s = .ok (u, s')) : Change d s.db s'.db := by
  cases c with
  | command c =>
    obtain ⟨t, hcommand, rfl⟩ := onDb_ok.mp h
    exact exec_change hcommand
  | submit sess p ids reference =>
    obtain ⟨t, hcommand, rfl | hattached⟩ := recoveryExec_submit_ok h
    · exact exec_change hcommand
    · rw [hattached.frame]
      exact exec_change hcommand
  | prepare sess p now =>
    obtain rfl | ⟨hp, intents, -, -, -, rfl⟩ := controlledPrepareTransferRecoveryV1_ok h
    · exact .quiet rfl
    · exact .quiet rfl

/-- The transfer that a call submits: its own, or that of the hold that it captures. -/
def Call.submission? (d : Digest) (s : Db) : Call → Option TransferRequest
  | .submitTransfer _ p _ => some p
  | .decideHold _ p clock _ =>
    if p.decision = .capture then
      (s.holds.find? p.target).map fun h => captureTransfer d p h clock.now
    else none
  | _ => none

@[inherit_doc Call.submission?]
def RecoveryCall.submission? (d : Digest) (s : Db) : RecoveryCall → Option TransferRequest
  | .command c => c.submission? d s
  | .submit _ p _ _ => some p
  | .prepare _ _ _ => none

/-- A call that submits a transfer under the key of a stored intent submits the payment of the
intent. -/
def RecoveryCall.Agrees (d : Digest) (c : RecoveryCall) (s : RecoveryDb) : Prop :=
  ∀ q, c.submission? d s.db = some q → ∀ i ∈ s.intents, i.requestKey = q.key →
    q.requestFingerprint = i.requestFingerprint

/-- Every call of a history agrees with the intents that it meets. -/
def Agreeing (d : Digest) : List RecoveryCall → RecoveryDb → Prop
  | [], _ => True
  | c :: cs, s => c.Agrees d s ∧ Agreeing d cs (commit (recoveryExec d c) s)

/-! ## Outcomes and their transfers -/

/-- The outcome names the transfer whose payment was requested. -/
def IdempotencyRequest.Pays (d : Digest) (r : IdempotencyRequest) (x : Transfer) : Prop :=
  r.requestFingerprint = d.sha256 x.canonical ∧ x.tenantId = r.tenantId ∧
    x.actorSubjectId = r.actorSubjectId ∧ IsCurrency x.currency ∧
    (r.responseBody.bind (·.text? "transfer_id")) = some x.id.text

section Outcomes

variable {d : Digest} {c : Call} {s s' : Db} {p : TransferRequest} {ids : TransferIds} {body : Json}

/-- The outcome of a new transfer pays it. -/
theorem FreshTransfer.pays (h : FreshTransfer p ids s s' body) {x : Transfer}
    (hx : x.id = h.row.id ∧ x.canonical = h.row.canonical ∧ x.tenantId = h.row.tenantId ∧
      x.actorSubjectId = h.row.actorSubjectId ∧ x.currency = h.row.currency)
    (hbody : body.text? "transfer_id" = some ids.transfer.text)
    (hfp : p.requestFingerprint = d.sha256 p.canonical) :
    (p.completion ids.transfer body).Pays d x := by
  obtain ⟨hid, hcanonical, htenant, hactor, hcode⟩ := hx
  obtain ⟨hrow, htenant', hactor', hdebit, hcredit, hamount, hcurrency, -, -⟩ :=
    pendingTransfer?_eq_some h.row_eq
  refine ⟨?_, htenant.trans htenant', hactor.trans hactor', ?_, ?_⟩
  · rw [hcanonical, Transfer.canonical, htenant', hactor', hdebit, hcredit, hamount, hcurrency]
    exact hfp
  · obtain ⟨a, -, -, ha⟩ := h.admitted.source_find
    rw [hcode, hcurrency, ← ha]
    exact a.currency_shape
  · rw [hid, hrow]
    exact hbody

/-- A new outcome is that of the transfer which the call submitted. -/
theorem Effect.request_new (h : Effect d c s s') {r : IdempotencyRequest}
    (hr : r ∈ s'.idempotencyRequests) (hnew : r ∉ s.idempotencyRequests) :
    (∃ q, c.submission? d s = some q ∧ r.key = q.key ∧
      r.requestFingerprint = q.requestFingerprint) ∧
    ∃ x, s'.transfers.find? x.id = some x ∧ r.Pays d x := by
  -- Only the two transfer calls and a capture add a request.
  cases h.requested with
  | kept heq => exact absurd (heq ▸ hr) hnew
  | rejected guarded h =>
    obtain rfl := ((Table.mem_insert? h.requests).mp hr).resolve_right hnew
    refine ⟨⟨_, rfl, rfl, rfl⟩, _, Table.find?_insert?_self h.transfers rfl, ?_⟩
    exact h.toFreshTransfer.pays ⟨rfl, rfl, rfl, rfl, rfl⟩ (by rw [h.body_eq]; rfl) guarded.fingerprint
  | posted guarded h =>
    obtain rfl := ((Table.mem_insert? h.requests).mp hr).resolve_right hnew
    refine ⟨⟨_, rfl, rfl, rfl⟩, _, Table.find?_insert?_self h.transfers rfl, ?_⟩
    exact h.toFreshTransfer.pays ⟨rfl, rfl, rfl, rfl, rfl⟩ (by rw [h.body_eq]; rfl) guarded.fingerprint
  | captured h =>
    -- The request of a capture is the one of its posting.
    have heq : s'.idempotencyRequests = h.mid.idempotencyRequests :=
      (congrArg Db.idempotencyRequests h.frame :)
    have htransfers : s'.transfers = h.mid.transfers := (congrArg Db.transfers h.frame :)
    rw [heq] at hr
    obtain rfl := ((Table.mem_insert? h.posted.requests).mp hr).resolve_right hnew
    have hstored := Table.find?_insert?_self h.posted.transfers rfl
    rw [← htransfers] at hstored
    refine ⟨⟨_, ?_, rfl, rfl⟩, _, hstored, ?_⟩
    · simp only [Call.submission?, h.decision, if_true, h.find, Option.map_some]
    · exact h.posted.toFreshTransfer.pays ⟨rfl, rfl, rfl, rfl, rfl⟩ (by rw [h.posted.body_eq]; rfl) rfl

end Outcomes

/-! ## What every history keeps -/

/-- The intents and the outcomes of a database agree. -/
structure RecoveryDb.Consistent (d : Digest) (s : RecoveryDb) : Prop where
  /-- A key has one intent of the actor. -/
  single : ∀ i ∈ s.intents, ∀ j ∈ s.intents, i.requestKey = j.requestKey → i = j
  /-- An intent has the fingerprint of its payment. -/
  fingerprint : ∀ i ∈ s.intents, i.requestFingerprint = d.sha256 i.canonical
  /-- The outcome under the key of an intent has its fingerprint. -/
  outcome : ∀ i ∈ s.intents, ∀ r, s.outcome? i = some r →
    r.requestFingerprint = i.requestFingerprint
  /-- An outcome names its transfer. -/
  paid : ∀ r ∈ s.db.idempotencyRequests, ∃ x, s.db.transfers.find? x.id = some x ∧ r.Pays d x

namespace RecoveryDb

variable {d : Digest} {s s' : RecoveryDb}

/-- A new intent keeps the agreement. -/
theorem Consistent.prepare (h : s.Consistent d) {p : PrepareRequest} {hp : p.WellFormed d}
    {now : Instant} {intents : Table RecoveryIntent.key} (hnew : ∀ i ∈ s.intents, ¬p.Meets i)
    (houtcome : ¬p.OutcomeConflicts s) (hinsert : s.intents.insert? (p.intent hp now) = some intents) :
    ({ s with intents := intents } : RecoveryDb).Consistent d where
  single i hi j hj hkey := by
    -- No intent that was there has the key of the new one.
    have hfresh : ∀ k ∈ s.intents, k.requestKey ≠ (p.intent hp now).requestKey := by
      intro k hk heq
      simp only [RecoveryIntent.requestKey, PrepareRequest.intent, Prod.mk.injEq] at heq
      exact hnew k hk ⟨heq.1, heq.2.1, .inl heq.2.2.2⟩
    rcases (Table.mem_insert? hinsert).mp hi with rfl | hi
    · rcases (Table.mem_insert? hinsert).mp hj with rfl | hj
      · rfl
      · exact absurd hkey.symm (hfresh j hj)
    · rcases (Table.mem_insert? hinsert).mp hj with rfl | hj
      · exact absurd hkey (hfresh i hi)
      · exact h.single i hi j hj hkey
  fingerprint i hi := by
    rcases (Table.mem_insert? hinsert).mp hi with rfl | hi
    · exact hp.2.2.2.2.2.2
    · exact h.fingerprint i hi
  outcome i hi r hr := by
    rcases (Table.mem_insert? hinsert).mp hi with rfl | hi
    · by_contra hne
      exact houtcome ⟨r, hr, .inl hne⟩
    · exact h.outcome i hi r hr
  paid := h.paid

/-- A command that agrees with the intents keeps the agreement. -/
theorem Consistent.command (h : s.Consistent d) {c : Call} {t : Db} (heffect : Effect d c s.db t)
    (hagrees : (RecoveryCall.command c).Agrees d s) :
    ({ s with db := t } : RecoveryDb).Consistent d where
  single := h.single
  fingerprint := h.fingerprint
  outcome i hi r hr := by
    by_cases hold : r ∈ s.db.idempotencyRequests
    · have hkey : r.key = i.requestKey := Table.key_of_find? hr
      exact h.outcome i hi r (Table.find?_eq_some.mpr ⟨hold, hkey⟩)
    · obtain ⟨⟨q, hq, hkey, hfp⟩, -⟩ := heffect.request_new (Table.mem_of_find? hr) hold
      rw [hfp]
      refine hagrees q hq i hi ?_
      rw [← hkey]
      exact (Table.key_of_find? hr).symm
  paid r hr := by
    by_cases hold : r ∈ s.db.idempotencyRequests
    · obtain ⟨x, hx, hpays⟩ := h.paid r hold
      exact ⟨x, heffect.change.transfer_kept hx, hpays⟩
    · exact (heffect.request_new hr hold).2

/-- What a returning call that agrees with the intents keeps. -/
theorem Consistent.step (h : s.Consistent d) {c : RecoveryCall} {u : Unit}
    (hexec : recoveryExec d c s = .ok (u, s')) (hagrees : c.Agrees d s) : s'.Consistent d := by
  cases c with
  | command c =>
    obtain ⟨t, hcommand, rfl⟩ := onDb_ok.mp hexec
    exact h.command (exec_effect hcommand) hagrees
  | submit sess p ids reference =>
    obtain ⟨t, hcommand, rfl | hattached⟩ := recoveryExec_submit_ok hexec
    · exact h.command (exec_effect hcommand) hagrees
    · have hcons := h.command (exec_effect hcommand) hagrees
      rw [hattached.frame]
      exact ⟨hcons.single, hcons.fingerprint, hcons.outcome, hcons.paid⟩
  | prepare sess p now =>
    obtain rfl | ⟨hp, intents, hnew, houtcome, hinsert, rfl⟩ :=
      controlledPrepareTransferRecoveryV1_ok hexec
    · exact h
    · exact h.prepare hnew houtcome hinsert

/-- What a history whose calls agree with the intents keeps. -/
theorem Consistent.run (h : s.Consistent d) {cs : List RecoveryCall} (hcs : Agreeing d cs s) :
    (run (recoveryExec d) cs s).Consistent d := by
  induction cs generalizing s with
  | nil => exact h
  | cons c cs ih =>
    rw [run_cons]
    refine ih ?_ hcs.2
    exact commit_invariant (I := fun t => t.Consistent d) (fun _ _ hexec _ => h.step hexec hcs.1) h

end RecoveryDb

/-! ## The main result -/

/-- Texts of payments of one actor that are the same are of the same payment. -/
theorem paymentText_inj {tenant source destination source' destination' : Uuid} {actor : String}
    {currency currency' : String} {amount amount' : Bigint} (hcurrency : IsCurrency currency)
    (hcurrency' : IsCurrency currency')
    (h : paymentText tenant actor source destination currency amount =
      paymentText tenant actor source' destination' currency' amount') :
    source = source' ∧ destination = destination' ∧ currency = currency' ∧ amount = amount' := by
  have hlist := congrArg String.toList h
  simp only [paymentText, String.toList_intercalate, List.map_cons, List.map_nil,
    List.intercalate, List.intersperse, List.flatten_cons, List.flatten_nil, List.append_nil,
    List.append_cancel_left_eq] at hlist
  have hlength : ∀ u v : Uuid, u.text.toList.length = v.text.toList.length := fun u v => by
    rw [Uuid.length_text, Uuid.length_text]
  obtain ⟨hsource, hlist⟩ := List.append_inj hlist (hlength _ _)
  obtain ⟨hdestination, hlist⟩ := List.append_inj (List.append_cancel_left hlist) (hlength _ _)
  obtain ⟨hcode, hlist⟩ := List.append_inj (List.append_cancel_left hlist)
    (hcurrency.1.trans hcurrency'.1.symm)
  have hamount := String.toList_inj.mp (List.append_cancel_left hlist)
  exact ⟨Uuid.text_inj.mp (String.toList_inj.mp hsource),
    Uuid.text_inj.mp (String.toList_inj.mp hdestination), String.toList_inj.mp hcode,
    Bigint.text_inj hamount⟩

/-- What is left of a text after its beginning. -/
theorem trimPrefix_append (a b : String) : trimPrefix (a ++ b) a = b := by
  unfold trimPrefix
  rw [String.toList_append, if_pos (List.prefix_append _ _), List.drop_left, String.ofList_toList]

/-- The command of a recovery has the fingerprint of the intent. -/
theorem recoveredCommand_fingerprint {d : Digest} {i : RecoveryIntent}
    {outcome : Option IdempotencyRequest} {c : TransferCommand}
    (h : recoveredCommand i.tenantId i.actorSubjectId (i.view outcome) = some c) :
    c.fingerprint d = d.sha256 i.canonical := by
  have hminor : (parseInt64 i.amount.text).bind Bigint.ofInt? = some i.amount := by
    rw [Bigint.text, parseInt64_decimal i.amount.inRange.1 i.amount.inRange.2, Option.bind_some,
      Bigint.ofInt?_eq_some]
  simp only [recoveredCommand, RecoveryIntent.view, Option.bind_eq_bind, Option.bind_eq_some_iff]
    at h
  obtain ⟨minor, hamount, exact, hnew, amount, hparse, source, hsource, destination, hdestination,
    hcommand⟩ := h
  rw [← Option.bind_eq_some_iff, hminor] at hamount
  obtain rfl := Option.some.inj hamount
  -- The amount that is written with the currency's exponent is parsed as the same minor units.
  unfold Money.new at hnew
  rw [dif_pos i.amount_pos.le] at hnew
  obtain ⟨currency, hcurrency, rfl⟩ := Option.map_eq_some_iff.mp hnew
  have hcode : currency.code = i.currency := lookupCurrency_code hcurrency i.currency_shape
  rw [Money.string, hcode, trimPrefix_append, Money.parse_amountText hcurrency] at hparse
  obtain rfl := Option.some.inj hparse
  obtain rfl := parseIdentifier_text hsource
  obtain rfl := parseIdentifier_text hdestination
  split at hcommand
  · obtain rfl := Option.some.inj hcommand
    rw [TransferCommand.fingerprint, hcode]
    rfl
  · cases hcommand

/-- The texts are different and have one digest. -/
def CollideOn (d : Digest) (a b : String) : Prop := a ≠ b ∧ d.sha256 a = d.sha256 b

section Agreement

variable {d : Digest} {s : RecoveryDb} {i : RecoveryIntent} {r : IdempotencyRequest}

/-- Without intents and outcomes nothing can disagree. -/
theorem RecoveryDb.Consistent.start (hintents : s.intents = .empty)
    (houtcomes : s.db.idempotencyRequests = .empty) : s.Consistent d := by
  refine ⟨?_, ?_, ?_, ?_⟩
  · rw [hintents]
    intro i hi
    cases hi
  · rw [hintents]
    intro i hi
    cases hi
  · rw [hintents]
    intro i hi
    cases hi
  · rw [houtcomes]
    intro r hr
    cases hr

/-- The outcome of an intent names the transfer that made its payment, unless the texts of the two
collide. -/
theorem RecoveryDb.Consistent.payment (h : s.Consistent d) (hi : i ∈ s.intents)
    (hr : s.outcome? i = some r) :
    ∃ x, s.db.transfers.find? x.id = some x ∧ x.id.text = (i.view (some r)).transferId ∧
      ((x.debitAccountId = i.sourceAccountId ∧ x.creditAccountId = i.destinationAccountId ∧
        x.currency = i.currency ∧ x.amount = i.amount) ∨ CollideOn d x.canonical i.canonical) := by
  have hfp := h.outcome i hi r hr
  obtain ⟨x, hx, hpays, htenant, hactor, hcurrency, hbody⟩ := h.paid r (Table.mem_of_find? hr)
  -- Outcome and intent share the key.
  have hkey : r.key = i.requestKey := Table.key_of_find? hr
  simp only [IdempotencyRequest.key, RecoveryIntent.requestKey, Prod.mk.injEq] at hkey
  have hdigest : d.sha256 x.canonical = d.sha256 i.canonical := by
    rw [← hpays, hfp, h.fingerprint i hi]
  refine ⟨x, hx, by simp [RecoveryIntent.view, hbody], ?_⟩
  -- Equal digests come from one text, or they are a collision of these two.
  by_cases htext : x.canonical = i.canonical
  · left
    rw [Transfer.canonical, RecoveryIntent.canonical, htenant, hactor, hkey.1, hkey.2.1] at htext
    exact paymentText_inj hcurrency i.currency_shape htext
  · exact .inr ⟨htext, hdigest⟩

/-- A recovery submits the payment of the actor's intent under the reference. -/
theorem RecoveryDb.Consistent.recovered (h : s.Consistent d) {tenant reference : Uuid}
    {actor : String} {c : TransferCommand} (hrecover : s.recover tenant actor reference = some c) :
    ∃ i ∈ s.intents, i.key = (tenant, actor, reference) ∧
      c.fingerprint d = i.requestFingerprint := by
  obtain ⟨item, hitem, hcommand⟩ := Option.bind_eq_some_iff.mp hrecover
  obtain ⟨i, hfind, rfl⟩ := Option.map_eq_some_iff.mp hitem
  have hmem := List.mem_filter.mp (List.mem_of_find?_eq_some hfind)
  have href := List.find?_some hfind
  rw [decide_eq_true_eq] at href
  have howner := of_decide_eq_true hmem.2
  obtain ⟨rfl, rfl, -⟩ := howner
  refine ⟨i, hmem.1, by rw [RecoveryIntent.key, href], ?_⟩
  rw [h.fingerprint i hmem.1]
  exact recoveredCommand_fingerprint hcommand

end Agreement

/-- **Recovery intents agree with outcomes** after every history whose submissions under the key of
a stored intent are of the payment of the intent. The references and the keys of the intents of an
actor correspond; an intent that is shown with an outcome is shown with the outcome of its own
payment, whose transfer moved the amount between the accounts of the intent unless its text and
that of the intent are two texts of one digest; and a recovery submits the payment of the intent. -/
theorem recovery_agrees (d : Digest) {s₀ : RecoveryDb} (hintents : s₀.intents = .empty)
    (houtcomes : s₀.db.idempotencyRequests = .empty) {cs : List RecoveryCall}
    (hcs : Agreeing d cs s₀) :
    let s := run (recoveryExec d) cs s₀
    (∀ i ∈ s.intents, ∀ j ∈ s.intents, i.tenantId = j.tenantId →
      i.actorSubjectId = j.actorSubjectId →
        (i.requestReference = j.requestReference ↔ i.idempotencyKey = j.idempotencyKey)) ∧
    (∀ tenant actor, ∀ i ∈ s.visible tenant actor,
      (i.view (s.outcome? i)).state = "posted" ∨ (i.view (s.outcome? i)).state = "rejected" →
        ∃ r x, s.outcome? i = some r ∧ r.requestFingerprint = i.requestFingerprint ∧
          s.db.transfers.find? x.id = some x ∧ x.id.text = (i.view (s.outcome? i)).transferId ∧
          ((x.debitAccountId = i.sourceAccountId ∧ x.creditAccountId = i.destinationAccountId ∧
            x.currency = i.currency ∧ x.amount = i.amount) ∨
              CollideOn d x.canonical i.canonical)) ∧
    ∀ tenant actor reference c, s.recover tenant actor reference = some c →
      ∃ i ∈ s.intents, i.key = (tenant, actor, reference) ∧
        c.fingerprint d = i.requestFingerprint := by
  intro s
  have hcons : s.Consistent d := (RecoveryDb.Consistent.start hintents houtcomes).run hcs
  refine ⟨?_, ?_, fun _ _ _ _ hrecover => hcons.recovered hrecover⟩
  · intro i hi j hj htenant hactor
    constructor
    · intro href
      have heq : i = j := Table.eq_of_key hi hj
        (by rw [RecoveryIntent.key, htenant, hactor, href]; rfl)
      rw [heq]
    · intro hkey
      have heq : i = j := hcons.single i hi j hj
        (by rw [RecoveryIntent.requestKey, htenant, hactor, hkey]; rfl)
      rw [heq]
  · intro tenant actor i hvisible hshown
    have hi : i ∈ s.intents := (List.mem_filter.mp hvisible).1
    rcases hfind : s.outcome? i with _ | r
    · -- Without an outcome the intent is shown as unresolved.
      rw [hfind] at hshown
      simp [RecoveryIntent.view, shownState] at hshown
    · obtain ⟨x, hx, hshown, hpaid⟩ := hcons.payment hi hfind
      exact ⟨r, x, rfl, hcons.outcome i hi r hfind, hx, hshown, hpaid⟩

namespace Sample

/-- The database without intents. -/
def recoveryDb : RecoveryDb := ⟨db, .empty, .empty⟩

/-- The reference under which the operator saves the intent of a transfer of 100. -/
def recoveryReference : Uuid := uuid 0x00000000000040008000000000000001

/-- The call that saves it. -/
def prepareTransfer : RecoveryCall :=
  .prepare session ⟨tenant, alice, recoveryReference, "sample-transfer-01", source, destination, "INR",
    big 100, fingerprint100⟩ 0

/-- The transfer of the intent, submitted with the reference. -/
def submitIntended : RecoveryCall := .submit session transferRequest (ids 100) recoveryReference

/-- What is shown to the operator: the state of each intent, with the fingerprints of the outcome
and of the intent. -/
def shown (s : RecoveryDb) : List (String × Option Bytes × Bytes) :=
  (s.visible tenant alice).map fun i =>
    ((i.view (s.outcome? i)).state, (s.outcome? i).map (·.requestFingerprint), i.requestFingerprint)

/-- What is shown of an intent that the operator sees. -/
theorem mem_shown {s : RecoveryDb} {i : RecoveryIntent} (h : i ∈ s.visible tenant alice) :
    ((i.view (s.outcome? i)).state, (s.outcome? i).map (·.requestFingerprint),
      i.requestFingerprint) ∈ shown s :=
  List.mem_map.mpr ⟨i, h, rfl⟩

end Sample

/-- The database after the intent has been saved and submitted. -/
def Sample.recovered : RecoveryDb :=
  run (recoveryExec digest) [prepareTransfer, submitIntended] recoveryDb

/-- The recovered intent is shown as posted with the outcome of its payment, its transfer moved
exactly the amount of the intent between its accounts, and a recovery submits the payment again. -/
theorem recovery_agrees_sample :
    Sample.shown Sample.recovered = [("posted", some Sample.fingerprint100, Sample.fingerprint100)] ∧
      (∀ i ∈ Sample.recovered.visible Sample.tenant Sample.alice, ∃ x,
        Sample.recovered.db.transfers.find? x.id = some x ∧
          x.id.text = (i.view (Sample.recovered.outcome? i)).transferId ∧
            x.debitAccountId = i.sourceAccountId ∧ x.creditAccountId = i.destinationAccountId ∧
              x.currency = i.currency ∧ x.amount = i.amount) ∧
      ∃ c, Sample.recovered.recover Sample.tenant Sample.alice Sample.recoveryReference = some c ∧
        ∃ i ∈ Sample.recovered.intents,
          i.key = (Sample.tenant, Sample.alice, Sample.recoveryReference) ∧
            c.fingerprint Sample.digest = i.requestFingerprint := by
  have hfacts : ((commit (recoveryExec Sample.digest Sample.prepareTransfer)
      Sample.recoveryDb).intents.rows.all (·.requestFingerprint = Sample.fingerprint100)) = true ∧
      Sample.shown Sample.recovered =
        [("posted", some Sample.fingerprint100, Sample.fingerprint100)] ∧
      (Sample.recovered.recover Sample.tenant Sample.alice Sample.recoveryReference).isSome =
        true ∧
      ∀ x ∈ Sample.recovered.db.transfers.rows, ∀ i ∈ Sample.recovered.intents.rows,
        x.canonical = i.canonical := by
    decide +kernel
  obtain ⟨hintents, hshown, hrecover, htexts⟩ := hfacts
  have hagree : Agreeing Sample.digest [Sample.prepareTransfer, Sample.submitIntended]
      Sample.recoveryDb := by
    refine ⟨fun q hq => ?_, fun q hq i hi _ => ?_, trivial⟩
    · cases hq
    · obtain rfl := Option.some.inj hq
      exact (of_decide_eq_true (List.all_eq_true.mp hintents i hi)).symm
  have hempty : Sample.recoveryDb.intents = .empty ∧
      Sample.recoveryDb.db.idempotencyRequests = .empty := ⟨rfl, rfl⟩
  obtain ⟨c, hc⟩ := Option.isSome_iff_exists.mp hrecover
  obtain ⟨-, hpaid, hrecovers⟩ := recovery_agrees Sample.digest hempty.1 hempty.2 hagree
  rw [← Sample.recovered] at hpaid hrecovers
  refine ⟨hshown, fun i hi => ?_, c, hc, hrecovers _ _ _ c hc⟩
  have hmem := Sample.mem_shown hi
  rw [hshown, List.mem_singleton] at hmem
  have hposted : (i.view (Sample.recovered.outcome? i)).state = "posted" := (Prod.mk.inj hmem).1
  obtain ⟨r, x, -, -, hx, htransfer, hmoved⟩ := hpaid _ _ i hi (.inl hposted)
  -- The one transfer has the text of the one intent, so nothing collides.
  have htext := htexts x (Table.mem_def.mp (Table.mem_of_find? hx)) i
    (Table.mem_def.mp (List.mem_filter.mp hi).1)
  exact ⟨x, hx, htransfer, hmoved.resolve_right fun hcollide => hcollide.1 htext⟩

/-- **Another payment can be shown as the outcome of an intent.** The intent of a transfer of 100 is
saved, a transfer of 200 is submitted under its key, and the intent is shown as posted. -/
theorem recovery_shows_other_payment :
    let s := run (recoveryExec Sample.digest)
      [Sample.prepareTransfer, .command (.submitTransfer Sample.session Sample.otherTransfer
        (Sample.ids 200))] Sample.recoveryDb
    ∃ i ∈ s.visible Sample.tenant Sample.alice, (i.view (s.outcome? i)).state = "posted" ∧
      ∃ r, s.outcome? i = some r ∧ r.requestFingerprint ≠ i.requestFingerprint := by
  intro s
  have hshown : Sample.shown s =
      [("posted", some Sample.fingerprint200, Sample.fingerprint100)] := by
    decide +kernel
  have hmem : ("posted", some Sample.fingerprint200, Sample.fingerprint100) ∈ Sample.shown s := by
    rw [hshown]
    exact List.mem_cons_self
  obtain ⟨i, hi, heq⟩ := List.mem_map.mp hmem
  obtain ⟨hstate, hrest⟩ := Prod.mk.inj heq
  obtain ⟨houtcome, hfp⟩ := Prod.mk.inj hrest
  obtain ⟨r, hr, hrfp⟩ := Option.map_eq_some_iff.mp houtcome
  refine ⟨i, hi, hstate, r, hr, ?_⟩
  rw [hrfp, hfp]
  decide

end LedgerSync
