import LedgerSync.Holds

/-!
# Opening imports

A manifest of opening balances is requested, approved by a second person and executed once. The
execution recomputes the manifest's digest, makes sure that every account in it is untouched, and
writes the opening amounts, the balances and one balance event for each account.
-/

namespace LedgerSync

open Lib

/-! ## Execution -/

/-- The arguments of `controlled_execute_opening_import_v1`. -/
structure ImportExecute where
  tenant : Uuid
  actor : String
  batch : Uuid
  contentSha256 : Bytes
  correlation : Uuid
  occurredAt : Timestamp

/-- The identifiers that an execution draws. -/
structure ImportIds where
  execution : Uuid
  audit : Uuid
  /-- The balance event of each account. -/
  event : Uuid → Uuid

/-- The instant of the execution. -/
def ImportExecute.now (p : ImportExecute) : Instant := instant p.occurredAt

/-- The rows of a manifest. -/
def Db.manifest (s : Db) (p : ImportExecute) : List ImportRow :=
  s.importRows.rows.filter fun r => r.batchId = p.batch ∧ r.tenantId = p.tenant

/-- The text whose digest identifies a manifest. -/
def manifestText (tenant : Uuid) (currency : String) (rows : List ImportRow) : String :=
  tenant.text ++ "\n" ++ currency ++ "\n" ++
    "\n".intercalate ((rows.mergeSort fun x y => x.accountId.toNat ≤ y.accountId.toNat).map
      fun r => r.accountId.text ++ "," ++ r.opening.text) ++ "\n"

/-- The account of a row is as it was created. -/
def Db.awaitsOpening (s : Db) (currency : String) (r : ImportRow) : Bool :=
  match s.accounts.find? r.accountId, s.openings.find? r.accountId,
    s.balances.find? r.accountId with
  | some a, some o, some b =>
    a.tenantId = r.tenantId ∧ a.currency = currency ∧ a.status = .active ∧ a.kind = .customer ∧
      (o.openingLedger : ℤ) = 0 ∧ (b.available : ℤ) = 0 ∧ (b.ledger : ℤ) = 0 ∧
      (b.version : ℤ) = 0 ∧ ¬∃ x ∈ s.postings.rows, x.accountId = r.accountId
  | _, _, _ => false

/-- The row of a manifest for an account. -/
def rowFor (rows : List ImportRow) (account : Uuid) : Option ImportRow :=
  rows.find? fun r => r.accountId = account

/-- An opening amount as the manifest sets it. -/
def OpeningBalance.imported (rows : List ImportRow) (o : OpeningBalance) : OpeningBalance :=
  match rowFor rows o.accountId with
  | none => o
  | some r => { o with openingLedger := r.opening }

/-- A balance as the manifest sets it; nothing when the new version does not fit. -/
def Balance.imported? (rows : List ImportRow) (now : Instant) (b : Balance) : Option Balance :=
  match rowFor rows b.accountId with
  | none => some b
  | some r => b.write? r.opening r.opening (b.version + 1) now

/-- A balance as the manifest sets it. -/
def Balance.imported (rows : List ImportRow) (now : Instant) (b : Balance) : Balance :=
  (b.imported? rows now).getD b

/-- An import keeps the account of a balance. -/
theorem Balance.imported_accountId (rows : List ImportRow) (now : Instant) (b : Balance) :
    (b.imported rows now).accountId = b.accountId := by
  unfold Balance.imported Balance.imported?
  rcases rowFor rows b.accountId with _ | r
  · rfl
  · simp only
    rcases hw : b.write? r.opening r.opening (b.version + 1) now with _ | b'
    · rfl
    · exact (Balance.written_of_write? hw).accountId

/-- An import keeps the account of an opening. -/
theorem OpeningBalance.imported_accountId (rows : List ImportRow) (o : OpeningBalance) :
    (o.imported rows).accountId = o.accountId := by
  unfold OpeningBalance.imported
  split <;> rfl

/-- The balance event of one account of a manifest. -/
def importEvent (p : ImportExecute) (ids : ImportIds) (currency : String) (r : ImportRow)
    (b : Balance) : OutboxEvent where
  id := ids.event r.accountId
  tenantId := p.tenant
  transferId := none
  fundingEventId := none
  openingImportId := some p.batch
  holdId := none
  accountId := some r.accountId
  aggregateType := "account_balance"
  aggregateId := r.accountId
  eventType := balanceChangedV1
  aggregateVersion := b.version
  payload := balancePayload (ids.event r.accountId) r.accountId "opening_import_id" p.batch currency
    b p.occurredAt (some r.opening)
  occurredAt := p.now

/-- The events of a manifest, one row after another. -/
def publishImport (p : ImportExecute) (ids : ImportIds) (currency : String) :
    List ImportRow → Proc Unit
  | [] => pure ()
  | r :: rs => do
    let s ← Txn.get
    match s.balances.find? r.accountId with
    | none => publishImport p ids currency rs
    | some b => do
      insertOutbox (importEvent p ids currency r b)
      publishImport p ids currency rs

/-- A digest in hexadecimal, `encode(bytes, 'hex')`. -/
def hexText (b : Bytes) : String := String.ofList (b.flatMap fun x => hexDigits 2 x.toNat)

/-- The audit event of an execution. -/
def importAudit (p : ImportExecute) (ids : ImportIds) (batch : ImportBatch) (a : ImportApproval) :
    AuditEvent where
  id := ids.audit
  tenantId := p.tenant
  actorSubjectId := some p.actor
  eventType := "opening_import.executed"
  targetType := "opening_import"
  targetId := some p.batch.text
  outcome := "succeeded"
  correlationId := p.correlation
  metadata := .obj [("function", .str "controlled_execute_opening_import_v1"),
    ("requester_subject_id", .str a.requesterSubjectId),
    ("approver_subject_id", .str a.approverSubjectId), ("executor_subject_id", .str p.actor),
    ("row_count", .num batch.rowCount), ("total_minor", .str batch.totalMinor.text),
    ("content_sha256", .str (hexText p.contentSha256))]
  occurredAt := p.now

/-- `INSERT INTO opening_import_executions`; an approval is used once. -/
def insertExecution (e : ImportExecution) : Proc Unit := do
  let s ← Txn.get
  Txn.raiseIf (∃ x ∈ s.importExecutions.rows, x.id = e.id ∨ x.approvalId = e.approvalId)
    (uniqueViolation "opening_import_executions_approval_id_key")
  insertRow Db.importExecutions (fun t s => { s with importExecutions := t })
    "opening_import_executions_batch_id_key" e

/-- The caller, the manifest and its approval. -/
def checkImport (sess : Session) (p : ImportExecute) : Proc (ImportBatch × ImportApproval) := do
  let s ← Txn.get
  Txn.raiseIf (¬IsActor p.actor ∨ p.contentSha256.length ≠ 32)
    ⟨"22023", "opening_import_input", "opening import execution input is invalid"⟩
  Txn.raiseIf (¬sess.Allows p.tenant ∨ p.actor ≠ sess.actorId)
    ⟨"42501", "opening_import_actor", "opening import tenant or actor scope is invalid"⟩
  Txn.raiseIf (sess.provisioning = false)
    ⟨"42501", "opening_import_caller", "opening import caller is not authorized"⟩
  Txn.raiseIf (¬s.settings.HasRole p.tenant p.actor [.finance])
    ⟨"42501", "opening_import_actor", "opening import executor is not authorized"⟩
  let batch ← Txn.orRaise ((s.importBatches.find? p.batch).filter (·.tenantId = p.tenant))
    ⟨"P0002", "opening_import_not_found", "opening import manifest was not found"⟩
  Txn.raiseIf (batch.contentSha256 ≠ p.contentSha256)
    ⟨"22023", "opening_import_hash", "opening import execution hash mismatch"⟩
  let approval ← Txn.orRaise ((s.importApprovals.find? p.batch).filter fun a =>
      a.contentSha256 = p.contentSha256 ∧ a.requesterSubjectId ≠ a.approverSubjectId)
    ⟨"55000", "opening_import_approval",
      "opening import does not have a valid independent approval"⟩
  pure (batch, approval)

/-- The writes of an execution. -/
def executeImport (d : Digest) (p : ImportExecute) (ids : ImportIds) (batch : ImportBatch)
    (approval : ImportApproval) : Proc (Bool × Bool) := do
  let s ← Txn.get
  let rows := s.manifest p
  Txn.raiseIf (rows.length ≠ batch.rowCount ∨
      (rows.map fun r => (r.opening : ℤ)).sum ≠ batch.totalMinor ∨
      d.sha256 (manifestText p.tenant batch.currency rows) ≠ batch.contentSha256)
    ⟨"55000", "opening_import_reconciliation", "opening import manifest reconciliation failed"⟩
  Txn.raiseIf ((rows.filter (s.awaitsOpening batch.currency)).length ≠ batch.rowCount)
    ⟨"55000", "opening_import_account_state",
      "opening import account state changed before execution"⟩
  Txn.raiseIf ((s.openings.rows.filter fun o => (rowFor rows o.accountId).isSome).length ≠
      batch.rowCount)
    ⟨"55000", "opening_import_partial", "opening import baseline update was incomplete"⟩
  Txn.raiseIf (∃ b ∈ s.balances.rows, (b.imported? rows p.now).isNone) outOfRange
  Txn.raiseIf ((s.balances.rows.filter fun b => (rowFor rows b.accountId).isSome).length ≠
      batch.rowCount)
    ⟨"55000", "opening_import_partial", "opening import projection update was incomplete"⟩
  Txn.set { s with
    openings := s.openings.mapRows (OpeningBalance.imported rows)
      (OpeningBalance.imported_accountId rows)
    balances := s.balances.mapRows (Balance.imported rows p.now)
      (Balance.imported_accountId rows p.now) }
  insertExecution ⟨ids.execution, p.batch, p.tenant, approval.id, p.actor, p.contentSha256,
    batch.rowCount, batch.totalMinor, p.correlation, p.now⟩
  publishImport p ids batch.currency rows
  insertAudit (importAudit p ids batch approval)
  pure (false, false)

/-- The guarded body of an execution. A manifest that was executed before is a replay when its
digest is the same, and a conflict otherwise. -/
def openingImportBody (d : Digest) (sess : Session) (p : ImportExecute) (ids : ImportIds) :
    Proc (Bool × Bool) := do
  let (batch, approval) ← checkImport sess p
  let s ← Txn.get
  match s.importExecutions.find? p.batch with
  | some e => pure (decide (e.contentSha256 = p.contentSha256),
      decide (e.contentSha256 ≠ p.contentSha256))
  | none => executeImport d p ids batch approval

/-- The exception handler: a repeated key is a conflict. -/
def importHandler (e : PgError) : Proc (Bool × Bool) :=
  if e.code = "23505" then pure (false, true) else Txn.raise e

/-- `controlled_execute_opening_import_v1`: whether the call is a replay, and whether it
conflicts. -/
def controlledExecuteOpeningImportV1 (d : Digest) (sess : Session) (p : ImportExecute)
    (ids : ImportIds) : Proc (Bool × Bool) :=
  Txn.attempt (openingImportBody d sess p ids) importHandler

/-! ## What a returning call did -/

/-- The rows of a batch are those of its tenant. -/
theorem mem_manifest {s : Db} {p : ImportExecute} {r : ImportRow} :
    r ∈ s.manifest p ↔ r ∈ s.importRows ∧ r.batchId = p.batch ∧ r.tenantId = p.tenant := by
  simp [Db.manifest, Table.mem_def]

/-- A manifest names each account once. -/
theorem nodup_manifest (s : Db) (p : ImportExecute) :
    ((s.manifest p).map ImportRow.accountId).Nodup := by
  have hkeys : ((s.manifest p).map ImportRow.key).Nodup :=
    s.importRows.nodup.sublist (List.filter_sublist.map ImportRow.key)
  -- Within one batch, rows with one account have one key.
  refine List.Nodup.of_map (fun account => (p.batch, account)) ?_
  rw [List.map_map]
  refine (List.map_congr_left fun r hr => ?_) ▸ hkeys
  rw [ImportRow.key, (mem_manifest.mp hr).2.1]
  rfl

/-- Looking an account of a manifest up gives its row. -/
theorem rowFor_eq_some {rows : List ImportRow} (hnd : (rows.map ImportRow.accountId).Nodup)
    {account : Uuid} {r : ImportRow} :
    rowFor rows account = some r ↔ r ∈ rows ∧ r.accountId = account :=
  Table.find?_eq_some (t := (⟨rows, hnd⟩ : Table ImportRow.accountId))

/-- An account has no row when no row is of it. -/
theorem rowFor_eq_none {rows : List ImportRow} {account : Uuid} :
    rowFor rows account = none ↔ ∀ r ∈ rows, r.accountId ≠ account := by
  simp [rowFor]

/-- An account that is as it was created. -/
structure AwaitsOpening (s : Db) (currency : String) (r : ImportRow) (b : Balance) : Prop where
  account : ∃ a, s.accounts.find? r.accountId = some a ∧ a.tenantId = r.tenantId ∧
    a.currency = currency ∧ a.kind = .customer
  opening : ∃ o, s.openings.find? r.accountId = some o ∧ (o.openingLedger : ℤ) = 0
  balance : s.balances.find? r.accountId = some b
  available : (b.available : ℤ) = 0
  ledger : (b.ledger : ℤ) = 0
  version : (b.version : ℤ) = 0
  unposted : ∀ x ∈ s.postings, x.accountId ≠ r.accountId

/-- An account that awaits its opening has a balance that was not used. -/
theorem awaitsOpening_of_true {s : Db} {currency : String} {r : ImportRow}
    (h : s.awaitsOpening currency r = true) : ∃ b, AwaitsOpening s currency r b := by
  unfold Db.awaitsOpening at h
  split at h
  · rename_i a o b ha ho hb
    obtain ⟨ht, hc, -, hk, ho0, ha0, hl0, hv0, hp⟩ := of_decide_eq_true h
    exact ⟨b, ⟨a, ha, ht, hc, hk⟩, ⟨o, ho, ho0⟩, hb, ha0, hl0, hv0, fun x hx hxa => hp ⟨x, hx, hxa⟩⟩
  · cases h

/-- The balance of an account in a manifest, after the manifest was written. -/
theorem find?_imported {s : Db} {p : ImportExecute} {r : ImportRow} (hr : r ∈ s.manifest p)
    {b : Balance} (hb : s.balances.find? r.accountId = some b)
    (hfits : (b.imported? (s.manifest p) p.now).isSome) :
    ∃ b', (s.balances.mapRows (Balance.imported (s.manifest p) p.now)
        (Balance.imported_accountId (s.manifest p) p.now)).find? r.accountId = some b' ∧
      b.Written b' r.opening r.opening (b.version + 1) p.now := by
  have hrow : rowFor (s.manifest p) b.accountId = some r :=
    (rowFor_eq_some (nodup_manifest s p)).mpr ⟨hr, (Table.key_of_find? hb).symm⟩
  obtain ⟨b', hb'⟩ := Option.isSome_iff_exists.mp hfits
  refine ⟨b', ?_, ?_⟩
  · rw [Table.find?_mapRows, hb, Option.map_some, Balance.imported, hb']
    rfl
  · rw [Balance.imported?, hrow] at hb'
    exact Balance.written_of_write? hb'

/-- A call that wrote a manifest. -/
structure OpeningImported (p : ImportExecute) (ids : ImportIds) (s s' : Db) where
  batch : ImportBatch
  ready : ∀ r ∈ s.manifest p, ∃ b, AwaitsOpening s batch.currency r b
  openings : s'.openings = s.openings.mapRows (OpeningBalance.imported (s.manifest p))
    (OpeningBalance.imported_accountId (s.manifest p))
  fits : ∀ b ∈ s.balances, (b.imported? (s.manifest p) p.now).isSome
  balances : s'.balances = s.balances.mapRows (Balance.imported (s.manifest p) p.now)
    (Balance.imported_accountId (s.manifest p) p.now)
  /-- The balance events, in the order of the rows. -/
  events : List OutboxEvent
  events_eq : List.Forall₂ (fun r e => ∃ b, s'.balances.find? r.accountId = some b ∧
    e = importEvent p ids batch.currency r b) (s.manifest p) events
  outbox : s.outbox.insertAll? events = some s'.outbox
  frame : s' = { s with
    openings := s'.openings, balances := s'.balances, outbox := s'.outbox, audit := s'.audit
    importExecutions := s'.importExecutions }

/-- The balances that a manifest writes. -/
theorem OpeningImported.find?_balances {p : ImportExecute} {ids : ImportIds} {s s' : Db}
    (h : OpeningImported p ids s s') {r : ImportRow} (hr : r ∈ s.manifest p) {b : Balance}
    (hb : s.balances.find? r.accountId = some b) :
    ∃ b', s'.balances.find? r.accountId = some b' ∧
      b.Written b' r.opening r.opening (b.version + 1) p.now := by
  rw [h.balances]
  exact find?_imported hr hb (h.fits b (Table.mem_of_find? hb))

/-- Accounts outside a manifest keep their balance. -/
theorem OpeningImported.find?_balances_of_not_mem {p : ImportExecute} {ids : ImportIds} {s s' : Db}
    (h : OpeningImported p ids s s') {account : Uuid}
    (hnot : ∀ r ∈ s.manifest p, r.accountId ≠ account) :
    s'.balances.find? account = s.balances.find? account := by
  rw [h.balances, Table.find?_mapRows]
  rcases hb : s.balances.find? account with _ | b
  · rfl
  · have hkey : b.accountId = account := Table.key_of_find? hb
    have hnone : rowFor (s.manifest p) b.accountId = none := rowFor_eq_none.mpr (hkey ▸ hnot)
    simp [Balance.imported, Balance.imported?, hnone]

/-- The events of rows whose balances have nothing reserved are stored as they are. -/
theorem publishImport_ok {p : ImportExecute} {ids : ImportIds} {currency : String}
    {rows : List ImportRow} {s s' : Db} {u : Unit}
    (hplain : ∀ r ∈ rows, ∃ b, s.balances.find? r.accountId = some b ∧ b.ledger = b.available)
    (h : publishImport p ids currency rows s = .ok (u, s')) :
    ∃ events, List.Forall₂ (fun r e => ∃ b, s.balances.find? r.accountId = some b ∧
        e = importEvent p ids currency r b) rows events ∧
      s.outbox.insertAll? events = some s'.outbox ∧ s' = { s with outbox := s'.outbox } := by
  induction rows generalizing s with
  | nil =>
    obtain ⟨-, rfl⟩ := Txn.pure_ok.mp h
    exact ⟨[], .nil, rfl, rfl⟩
  | cons r rs ih =>
    obtain ⟨b, hb, heq⟩ := hplain r (List.mem_cons_self ..)
    simp only [publishImport, Txn.get_bind_ok, hb] at h
    obtain ⟨_, s₁, hinsert, h⟩ := Txn.bind_ok.mp h
    obtain ⟨e, he, -, t, ht, rfl⟩ := insertOutbox_ok.mp hinsert
    have hsame : importEvent p ids currency r b = e := by
      simpa [enrichReservedBalanceEventV1, importEvent, hb, heq] using he
    subst hsame
    obtain ⟨events, hevents, hall, hframe⟩ :=
      ih (s := { s with outbox := t }) (fun x hx => hplain x (List.mem_cons_of_mem _ hx)) h
    exact ⟨_ :: events, .cons ⟨b, hb, rfl⟩ hevents, Table.insertAll?_cons.mpr ⟨t, ht, hall⟩, hframe⟩

/-- A test that as many rows pass as there are is passed by every row. -/
theorem forall_of_length_filter {rows : List ImportRow} {q : ImportRow → Bool}
    (h : (rows.filter q).length = rows.length) : ∀ r ∈ rows, q r = true := by
  have hall : rows.filter q = rows := List.filter_sublist.eq_of_length h
  exact List.filter_eq_self.mp hall

/-- An import that returns has imported the openings of its rows. -/
theorem executeImport_ok {d : Digest} {p : ImportExecute} {ids : ImportIds} {batch : ImportBatch}
    {approval : ImportApproval} {s s' : Db} {r : Bool × Bool}
    (h : executeImport d p ids batch approval s = .ok (r, s')) :
    Nonempty (OpeningImported p ids s s') := by
  simp only [executeImport, insertExecution, Txn.bind_assoc, Txn.get_bind_ok, Txn.raiseIf_bind_ok,
    Txn.set_bind_ok, insertRow_bind_ok, not_or, not_not, ne_eq, not_exists, not_and] at h
  obtain ⟨⟨hcount, -, -⟩, hready, -, hfits, -, -, executions, -, h⟩ := h
  obtain ⟨_, s₁, hpublish, h⟩ := Txn.bind_ok.mp h
  obtain ⟨_, s₂, haudit, h⟩ := Txn.bind_ok.mp h
  obtain ⟨audit, -, rfl⟩ := insertAudit_ok.mp haudit
  obtain ⟨-, rfl⟩ := Txn.pure_ok.mp h
  have hwaits : ∀ r ∈ s.manifest p, ∃ b, AwaitsOpening s batch.currency r b := fun r hr =>
    awaitsOpening_of_true (forall_of_length_filter (hready.trans hcount.symm) r hr)
  have hsome : ∀ b ∈ s.balances, (b.imported? (s.manifest p) p.now).isSome := fun b hb => by
    simpa [Option.isSome_iff_ne_none] using hfits b hb
  -- The written balances have nothing reserved, so the trigger leaves the events as they are.
  have hplain : ∀ r ∈ s.manifest p, ∃ b, (s.balances.mapRows
      (Balance.imported (s.manifest p) p.now)
      (Balance.imported_accountId (s.manifest p) p.now)).find? r.accountId = some b ∧
      b.ledger = b.available := by
    intro r hr
    obtain ⟨b, hb⟩ := hwaits r hr
    obtain ⟨b', hb', hw⟩ :=
      find?_imported hr hb.balance (hsome b (Table.mem_of_find? hb.balance))
    exact ⟨b', hb', Bigint.ext (hw.ledger.trans hw.available.symm)⟩
  obtain ⟨events, hevents, hall, hframe⟩ := publishImport_ok hplain hpublish
  exact ⟨{
    batch := batch
    ready := hwaits
    openings := by rw [hframe]
    fits := hsome
    balances := by rw [hframe]
    events := events
    events_eq := by rw [hframe]; exact hevents
    outbox := hall
    frame := by rw [hframe] }⟩

/-- An execution either wrote nothing or wrote the whole manifest. -/
theorem controlledExecuteOpeningImportV1_ok {d : Digest} {sess : Session} {p : ImportExecute}
    {ids : ImportIds} {s s' : Db} {r : Bool × Bool}
    (h : controlledExecuteOpeningImportV1 d sess p ids s = .ok (r, s')) :
    s' = s ∨ Nonempty (OpeningImported p ids s s') := by
  rcases Txn.attempt_ok.mp h with h | ⟨e, -, h⟩
  · simp only [openingImportBody] at h
    obtain ⟨⟨batch, approval⟩, s₁, hcheck, h⟩ := Txn.bind_ok.mp h
    simp only [checkImport, Txn.get_bind_ok, Txn.raiseIf_bind_ok, Txn.orRaise_bind_ok,
      Txn.pure_ok] at hcheck
    obtain ⟨-, -, -, -, _, -, -, _, -, -, rfl⟩ := hcheck
    rw [Txn.get_bind_ok] at h
    rcases hfind : s.importExecutions.find? p.batch with _ | e
    · simp only [hfind] at h
      exact .inr (executeImport_ok h)
    · simp only [hfind, Txn.pure_ok] at h
      exact .inl h.2.symm
  · unfold importHandler at h
    split_ifs at h
    · exact .inl (Txn.pure_ok.mp h).2.symm
    · cases Txn.raise_ok.mp h

end LedgerSync
