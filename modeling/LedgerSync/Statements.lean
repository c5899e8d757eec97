import LedgerSync.Schema

/-!
# Statements that the commands share

Inserts with their unique constraints and triggers, the balance updates, the audit procedure, and
the balance event that every producer builds. Each statement has one lemma that says what it did
when it did not raise.
-/

namespace LedgerSync

open Lib

/-! ## Errors of the database itself -/

/-- A row repeats a key. -/
def uniqueViolation (constraint : String) : PgError :=
  ⟨"23505", constraint, "duplicate key value violates unique constraint"⟩

/-- A row fails its check. -/
def checkViolation (constraint : String) : PgError :=
  ⟨"23514", constraint, "new row violates check constraint"⟩

/-- A number does not fit its column. -/
def outOfRange : PgError := ⟨"22003", "", "bigint out of range"⟩

/-- `INTO STRICT` found no row. -/
def noDataFound : PgError := ⟨"P0002", "", "query returned no rows"⟩

/-! ## Inserts -/

section Insert

variable {ρ κ : Type} {key : ρ → κ} [DecidableEq κ]

/-- `INSERT` of one row into the table that `get` reads and `put` writes. -/
def insertRow (get : Db → Table key) (put : Table key → Db → Db) (constraint : String)
    (row : ρ) : Proc Unit := do
  let s ← Txn.get
  let t ← Txn.orRaise ((get s).insert? row) (uniqueViolation constraint)
  Txn.set (put t s)

/-- An insertion returns when the key of its row is free. -/
@[simp]
theorem insertRow_ok {get : Db → Table key} {put : Table key → Db → Db} {constraint : String}
    {row : ρ} {s s' : Db} {u : Unit} :
    insertRow get put constraint row s = .ok (u, s') ↔
      ∃ t, (get s).insert? row = some t ∧ put t s = s' := by
  simp [insertRow]

/-- What follows an insertion runs on the table with the row. -/
@[simp]
theorem insertRow_bind_ok {β : Type} {get : Db → Table key} {put : Table key → Db → Db}
    {constraint : String} {row : ρ} {f : Unit → Proc β} {s s' : Db} {b : β} :
    (insertRow get put constraint row >>= f) s = .ok (b, s') ↔
      ∃ t, (get s).insert? row = some t ∧ f () (put t s) = .ok (b, s') := by
  rw [Txn.bind_ok]
  constructor
  · rintro ⟨_, _, hrow, hf⟩
    obtain ⟨t, ht, rfl⟩ := insertRow_ok.mp hrow
    exact ⟨t, ht, hf⟩
  · rintro ⟨t, ht, hf⟩
    exact ⟨(), put t s, insertRow_ok.mpr ⟨t, ht, rfl⟩, hf⟩

end Insert

/-- `INSERT INTO idempotency_requests`. -/
def insertRequest (r : IdempotencyRequest) : Proc Unit :=
  insertRow Db.idempotencyRequests (fun t s => { s with idempotencyRequests := t })
    "idempotency_requests_pkey" r

/-- Two journals may not have one source. -/
def Journal.SameSource (x y : Journal) : Prop :=
  (x.transferId ≠ none ∧ x.transferId = y.transferId) ∨
    (x.fundingEventId ≠ none ∧ x.fundingEventId = y.fundingEventId) ∨
    (x.tenantId = y.tenantId ∧ x.sourceType = y.sourceType ∧ x.sourceId = y.sourceId)

/-- Whether two journals are of one source can be decided. -/
instance (x y : Journal) : Decidable (x.SameSource y) :=
  inferInstanceAs (Decidable (_ ∨ _ ∨ _))

/-- `INSERT INTO journal_transactions`. -/
def insertJournal (j : Journal) : Proc Unit := do
  let s ← Txn.get
  Txn.raiseIf (∃ x ∈ s.journals.rows, j.SameSource x) (uniqueViolation "journal_source_identity_key")
  insertRow Db.journals (fun t s => { s with journals := t }) "journal_transactions_pkey" j

/-- `INSERT INTO ledger_postings`, whose trigger compares the currency with the account's. -/
def insertPosting (p : Posting) : Proc Unit := do
  let s ← Txn.get
  Txn.raiseIf (¬∃ a, s.accounts.find? p.accountId = some a ∧ a.currency = p.currency)
    ⟨"23514", "", "posting currency must match account currency"⟩
  insertRow Db.postings (fun t s => { s with postings := t }) "ledger_postings_pkey" p

/-- Two transfers may not share a journal or compensate one transfer. -/
def Transfer.Clashes (x y : Transfer) : Prop :=
  (x.journalTransactionId ≠ none ∧ x.journalTransactionId = y.journalTransactionId) ∨
    (x.compensationOfTransferId ≠ none ∧
      x.compensationOfTransferId = y.compensationOfTransferId)

/-- Whether two transfers clash can be decided. -/
instance (x y : Transfer) : Decidable (x.Clashes y) := inferInstanceAs (Decidable (_ ∨ _))

/-- `INSERT INTO transfers`. -/
def insertTransfer (x : Transfer) : Proc Unit := do
  let s ← Txn.get
  Txn.raiseIf (∃ y ∈ s.transfers.rows, x.Clashes y)
    (uniqueViolation "transfer_single_compensation_idx")
  insertRow Db.transfers (fun t s => { s with transfers := t }) "transfers_pkey" x

/-- `INSERT INTO audit_events`. -/
def insertAudit (e : AuditEvent) : Proc Unit :=
  insertRow Db.audit (fun t s => { s with audit := t }) "audit_events_pkey" e

/-- `INSERT INTO approval_records`; a target has one record for each command type and status. -/
def insertApproval (a : Approval) : Proc Unit := do
  let s ← Txn.get
  Txn.raiseIf (∃ x ∈ s.approvals.rows, x.tenantId = a.tenantId ∧ x.commandType = a.commandType ∧
    x.targetId = a.targetId ∧ x.status = a.status) (uniqueViolation "approval_records_status_key")
  insertRow Db.approvals (fun t s => { s with approvals := t }) "approval_records_pkey" a

/-- A request is inserted when its key is free. -/
theorem insertRequest_ok {r : IdempotencyRequest} {s s' : Db} {u : Unit} :
    insertRequest r s = .ok (u, s') ↔
      ∃ t, s.idempotencyRequests.insert? r = some t ∧ { s with idempotencyRequests := t } = s' :=
  insertRow_ok

/-- A transfer is inserted when it clashes with no other and its identifier is free. -/
theorem insertTransfer_ok {x : Transfer} {s s' : Db} {u : Unit} :
    insertTransfer x s = .ok (u, s') ↔ (¬∃ y ∈ s.transfers.rows, x.Clashes y) ∧
      ∃ t, s.transfers.insert? x = some t ∧ { s with transfers := t } = s' := by
  simp [insertTransfer]

/-- An audit event is inserted when its identifier is free. -/
theorem insertAudit_ok {e : AuditEvent} {s s' : Db} {u : Unit} :
    insertAudit e s = .ok (u, s') ↔
      ∃ t, s.audit.insert? e = some t ∧ { s with audit := t } = s' :=
  insertRow_ok

/-- An approval record is inserted when its target has none of its type and status and its
identifier is free. -/
theorem insertApproval_ok {a : Approval} {s s' : Db} {u : Unit} :
    insertApproval a s = .ok (u, s') ↔
      (¬∃ x ∈ s.approvals.rows, x.tenantId = a.tenantId ∧ x.commandType = a.commandType ∧
        x.targetId = a.targetId ∧ x.status = a.status) ∧
        ∃ t, s.approvals.insert? a = some t ∧ { s with approvals := t } = s' := by
  simp [insertApproval]

/-! ## Outbox events -/

/-- The event type of a balance change whose ledger and available amounts agree. -/
def balanceChangedV1 : String := "account.balance.changed.v1"

/-- The event type of a balance change that carries both amounts. -/
def balanceChangedV2 : String := "account.balance.changed.v2"

/-- The trigger `enrich_reserved_balance_event_v1`: an event of the first version whose account
has a reserved amount is stored as one of the second version. There is no event when the account
has no balance. -/
def enrichReservedBalanceEventV1 (s : Db) (e : OutboxEvent) : Option OutboxEvent :=
  match e.accountId with
  | none => some e
  | some account =>
    if e.eventType = balanceChangedV1 then
      (s.balances.find? account).map fun b =>
        if b.ledger ≠ b.available then
          { e with
            eventType := balanceChangedV2
            payload := e.payload.merge (.obj [("event_type", .str balanceChangedV2),
              ("ledger_minor", .str b.ledger.text),
              ("reserved_minor", .str (decimal (b.ledger - b.available)))]) }
        else e
    else some e

/-- Two events may not report one change. -/
def OutboxEvent.Clashes (x y : OutboxEvent) : Prop :=
  (x.transferId ≠ none ∧ x.accountId ≠ none ∧ x.transferId = y.transferId ∧
    x.accountId = y.accountId ∧ x.eventType = y.eventType) ∨
  (x.fundingEventId ≠ none ∧ x.tenantId = y.tenantId ∧ x.fundingEventId = y.fundingEventId ∧
    x.eventType = y.eventType ∧ x.aggregateVersion = y.aggregateVersion) ∨
  (x.openingImportId ≠ none ∧ x.accountId ≠ none ∧ x.tenantId = y.tenantId ∧
    x.openingImportId = y.openingImportId ∧ x.accountId = y.accountId ∧ x.eventType = y.eventType)

/-- Whether two events clash can be decided. -/
instance (x y : OutboxEvent) : Decidable (x.Clashes y) := inferInstanceAs (Decidable (_ ∨ _ ∨ _))

/-- `INSERT INTO outbox_events`. -/
def insertOutbox (e : OutboxEvent) : Proc Unit := do
  let s ← Txn.get
  let e' ← Txn.orRaise (enrichReservedBalanceEventV1 s e) noDataFound
  Txn.raiseIf (∃ x ∈ s.outbox.rows, e'.Clashes x) (uniqueViolation "outbox_events_transfer_id_key")
  insertRow Db.outbox (fun t s => { s with outbox := t }) "outbox_events_pkey" e'

/-- An event is inserted as the trigger enriches it, when it clashes with no other and its
identifier is free. -/
theorem insertOutbox_ok {e : OutboxEvent} {s s' : Db} {u : Unit} :
    insertOutbox e s = .ok (u, s') ↔ ∃ e', enrichReservedBalanceEventV1 s e = some e' ∧
      (¬∃ x ∈ s.outbox.rows, e'.Clashes x) ∧
      ∃ t, s.outbox.insert? e' = some t ∧ { s with outbox := t } = s' := by
  simp [insertOutbox]

/-- The payload of a balance event of the first version. `cause` names the column of the command
that changed the balance, and corrections, funding and imports add the amount of the change. -/
def balancePayload (eventId account : Uuid) (cause : String) (causeId : Uuid) (currency : String)
    (b : Balance) (occurredAt : Timestamp) (amount : Option ℤ) : Json :=
  .obj ([("event_id", .str eventId.text), ("event_type", .str balanceChangedV1),
    ("account_id", .str account.text), (cause, .str causeId.text), ("currency", .str currency),
    ("available_minor", .str b.available.text), ("balance_version", .str b.version.text),
    ("occurred_at", .str (utcText occurredAt))] ++
    amount.toList.map fun a => ("amount_minor", .str (decimal a)))

/-! ## Audit -/

/-- `s ~ '^[a-z][a-z0-9_]{0,63}$'`, and with dots for event types up to 128 characters. -/
def IsAuditName (dots : Bool) (limit : ℕ) (s : String) : Prop :=
  1 ≤ s.toList.length ∧ s.toList.length ≤ limit ∧
    (∀ c, s.toList.head? = some c → 'a' ≤ c ∧ c ≤ 'z') ∧
    ∀ c ∈ s.toList, ('a' ≤ c ∧ c ≤ 'z') ∨ ('0' ≤ c ∧ c ≤ '9') ∨ c = '_' ∨ (dots = true ∧ c = '.')

/-- Whether a text is a name in an audit event can be decided. -/
instance (dots : Bool) (limit : ℕ) (s : String) : Decidable (IsAuditName dots limit s) :=
  inferInstanceAs (Decidable (_ ∧ _ ∧ (∀ c, _ = some c → _) ∧ ∀ c ∈ _, _))

/-- The words that a metadata key may not contain. -/
def unsafeWords : List String :=
  ["secret", "token", "authorization", "cookie", "session", "csrf", "consistency", "credential",
    "database_url", "connection_string", "dsn", "private_key", "api_key", "access_key", "amount",
    "balance", "email", "phone", "address", "payload"]

/-- One metadata entry: a plain key, and a scalar value that is short and printable. -/
def SafeEntry (entry : String × Json) : Prop :=
  IsAuditName false 64 entry.1 ∧ (∀ w ∈ unsafeWords, ¬w.toList <:+: entry.1.toList) ∧
    match entry.2 with
    | .arr _ => False
    | .obj _ => False
    | v => ∀ s, v.scalarText? = some s → s.toList.length ≤ 256 ∧ ¬HasControl s

/-- Whether an entry of an audit event is safe can be decided. -/
instance (entry : String × Json) : Decidable (SafeEntry entry) := by
  unfold SafeEntry
  rcases entry with ⟨k, _ | b | n | s | xs | fs⟩ <;> infer_instance

/-- The fields of an object of at most 16 KiB. -/
def metadataFields? : Json → Option (List (String × Json))
  | .obj fields =>
    if (String.ofList (Json.obj fields).render).utf8ByteSize ≤ 16384 then some fields else none
  | _ => none

/-- `controlled_append_audit_v1`. -/
def controlledAppendAuditV1 (sess : Session) (e : AuditEvent) : Proc Unit := do
  Txn.raiseIf (¬sess.Allows e.tenantId ∨ (e.actorSubjectId ≠ none ∧
      e.actorSubjectId ≠ some sess.actorId) ∨
      (e.actorSubjectId = none ∧ ¬"system:".toList <+: sess.actorId.toList))
    ⟨"42501", "", "audit scope denied"⟩
  Txn.raiseIf (¬IsAuditName true 128 e.eventType ∨ ¬IsAuditName false 64 e.targetType ∨
      (∃ t, e.targetId = some t ∧ (256 < t.utf8ByteSize ∨ HasControl t)) ∨
      e.outcome ∉ ["allowed", "denied", "succeeded", "failed"])
    ⟨"22023", "", "invalid audit metadata envelope"⟩
  let fields ← Txn.orRaise (metadataFields? e.metadata)
    ⟨"22023", "", "invalid audit metadata envelope"⟩
  Txn.raiseIf (∃ f ∈ fields, ¬SafeEntry f) ⟨"22023", "", "unsafe audit metadata"⟩
  insertAudit e

/-- What is left of the audit procedure once it has returned. -/
theorem controlledAppendAuditV1_ok {sess : Session} {e : AuditEvent} {s s' : Db} {u : Unit}
    (h : controlledAppendAuditV1 sess e s = .ok (u, s')) :
    ∃ t, s.audit.insert? e = some t ∧ { s with audit := t } = s' := by
  simp only [controlledAppendAuditV1, Txn.raiseIf_bind_ok, Txn.orRaise_bind_ok] at h
  obtain ⟨-, -, _, -, -, h⟩ := h
  exact insertAudit_ok.mp h

/-! ## Balance updates -/

/-- The balance row with new amounts, when they fit and pass the row's checks. -/
def Balance.write? (b : Balance) (available ledger version : ℤ) (updatedAt : Instant) :
    Option Balance :=
  match Bigint.ofInt? available, Bigint.ofInt? ledger, Bigint.ofInt? version with
  | some a, some l, some v =>
    if h : 0 ≤ (v : ℤ) ∧ (b.allowNegative = true ∨ 0 ≤ (a : ℤ)) ∧
        (b.allowNegative = true ∨ 0 ≤ (l : ℤ)) then
      some ⟨b.accountId, a, l, v, b.allowNegative, updatedAt, h.1, h.2.1, h.2.2⟩
    else none
  | _, _, _ => none

/-- `b'` is `b` with new amounts. -/
structure Balance.Written (b b' : Balance) (available ledger version : ℤ) (updatedAt : Instant) :
    Prop where
  accountId : b'.accountId = b.accountId
  available : (b'.available : ℤ) = available
  ledger : (b'.ledger : ℤ) = ledger
  version : (b'.version : ℤ) = version
  allowNegative : b'.allowNegative = b.allowNegative
  updatedAt : b'.updatedAt = updatedAt

/-- A balance that can be written is written as asked. -/
theorem Balance.written_of_write? {b b' : Balance} {available ledger version : ℤ} {at' : Instant}
    (h : b.write? available ledger version at' = some b') :
    b.Written b' available ledger version at' := by
  unfold Balance.write? at h
  split at h
  · rename_i a l v ha hl hv
    split_ifs at h
    cases h
    exact ⟨rfl, Bigint.ofInt?_eq_some.mp ha, Bigint.ofInt?_eq_some.mp hl,
      Bigint.ofInt?_eq_some.mp hv, rfl, rfl⟩
  · simp at h

/-- The written row is read back in the place of the old one. -/
theorem Balance.Written.find?_replace {b b' : Balance} {available ledger version : ℤ}
    {at' : Instant} (hw : b.Written b' available ledger version at') {t : Table Balance.accountId}
    {account : Uuid} (hb : t.find? account = some b) : (t.replace b').find? account = some b' := by
  exact Table.find?_replace_self hb (hw.accountId.trans (Table.key_of_find? hb))

/-- Every other account keeps its row. -/
theorem Balance.Written.find?_replace_ne {b b' : Balance} {available ledger version : ℤ}
    {at' : Instant} (hw : b.Written b' available ledger version at') {t : Table Balance.accountId}
    {account other : Uuid} (hb : t.find? account = some b) (hne : other ≠ account) :
    (t.replace b').find? other = t.find? other := by
  apply Table.find?_replace_ne
  rw [hw.accountId, Table.key_of_find? hb]
  exact hne

/-- `UPDATE account_balance_projections` of one row that was read before. -/
def writeBalance (b : Balance) (available ledger version : ℤ) (updatedAt : Instant) :
    Proc Balance := do
  Txn.raiseIf (¬Bigint.Fits available ∨ ¬Bigint.Fits ledger ∨ ¬Bigint.Fits version) outOfRange
  let b' ← Txn.orRaise (b.write? available ledger version updatedAt)
    (checkViolation "account_balance_available_policy")
  let s ← Txn.get
  Txn.set { s with balances := s.balances.replace b' }
  pure b'

/-- Writing a balance returns it and replaces its row. -/
theorem writeBalance_ok {b b' : Balance} {available ledger version : ℤ} {at' : Instant}
    {s s' : Db} (h : writeBalance b available ledger version at' s = .ok (b', s')) :
    b.Written b' available ledger version at' ∧
      { s with balances := s.balances.replace b' } = s' := by
  simp only [writeBalance, Txn.raiseIf_bind_ok, Txn.orRaise_bind_ok, Txn.get_bind_ok,
    Txn.set_bind_ok, Txn.pure_ok] at h
  obtain ⟨-, _, hb, rfl, hs⟩ := h
  exact ⟨Balance.written_of_write? hb, hs⟩

/-- Both amounts of an account lowered, if both cover the amount. -/
def debitBalance (account : Uuid) (amount : ℤ) (updatedAt : Instant) (e : PgError) :
    Proc Balance := do
  let s ← Txn.get
  let b ← Txn.orRaise ((s.balances.find? account).filter
    fun b => amount ≤ (b.available : ℤ) ∧ amount ≤ (b.ledger : ℤ)) e
  writeBalance b (b.available - amount) (b.ledger - amount) (b.version + 1) updatedAt

/-- Both amounts of an account raised. An account without a balance leaves the version unset,
which the event that reports it cannot store. -/
def creditBalance (account : Uuid) (amount : ℤ) (updatedAt : Instant) : Proc Balance := do
  let s ← Txn.get
  let b ← Txn.orRaise (s.balances.find? account)
    ⟨"23502", "", "null value in column aggregate_version"⟩
  writeBalance b (b.available + amount) (b.ledger + amount) (b.version + 1) updatedAt

/-- A debit takes the amount from both columns of a balance that has it. -/
theorem debitBalance_ok {account : Uuid} {amount : ℤ} {at' : Instant} {e : PgError} {b' : Balance}
    {s s' : Db} (h : debitBalance account amount at' e s = .ok (b', s')) :
    ∃ b, s.balances.find? account = some b ∧ amount ≤ b.available ∧ amount ≤ b.ledger ∧
      b.Written b' (b.available - amount) (b.ledger - amount) (b.version + 1) at' ∧
      { s with balances := s.balances.replace b' } = s' := by
  simp only [debitBalance, Txn.get_bind_ok, Txn.orRaise_bind_ok, Option.filter_eq_some_iff,
    decide_eq_true_eq] at h
  obtain ⟨b, ⟨hb, ha, hl⟩, h⟩ := h
  exact ⟨b, hb, ha, hl, writeBalance_ok h⟩

/-- A credit adds the amount to both columns of a balance. -/
theorem creditBalance_ok {account : Uuid} {amount : ℤ} {at' : Instant} {b' : Balance} {s s' : Db}
    (h : creditBalance account amount at' s = .ok (b', s')) :
    ∃ b, s.balances.find? account = some b ∧
      b.Written b' (b.available + amount) (b.ledger + amount) (b.version + 1) at' ∧
      { s with balances := s.balances.replace b' } = s' := by
  simp only [creditBalance, Txn.get_bind_ok, Txn.orRaise_bind_ok] at h
  obtain ⟨b, hb, h⟩ := h
  exact ⟨b, hb, writeBalance_ok h⟩

end LedgerSync
