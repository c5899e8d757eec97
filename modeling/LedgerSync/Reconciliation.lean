import LedgerSync.Book
import LedgerSync.Documents
import LedgerSync.StatementSources

/-!
# Statement reconciliation

The tables and the stored procedures that compare imported statement files with the ledger: a tenant
maps one source account, imports files, prepares a run with a frozen snapshot of ledger postings,
completes it with the matches that the service proposes, and reviews what is left. The procedures
read the ledger and write only its audit trail.

Three things are left to the database (`StatementEnv`): the digests of texts and files, the time at
which a posting was recorded, and the order of texts. The rows of a file have one mapping, so
`(mapping_id, row_id)` identifies a row and implies the primary key `(import_id, row_id)`.
-/

namespace LedgerSync

open Lib

/-! ## Columns -/

/-- What the comparison says of a row or of a posting. -/
inductive Classification where
  | matched
  | ambiguous
  | amountOrDirectionDifference
  | unmatchedExternal
  | alreadyConsumed
  | unmatchedInternal
deriving DecidableEq

/-- The text of a classification. -/
def Classification.text : Classification → String
  | matched => "matched"
  | ambiguous => "ambiguous"
  | amountOrDirectionDifference => "amount_or_direction_difference"
  | unmatchedExternal => "unmatched_external"
  | alreadyConsumed => "already_consumed"
  | unmatchedInternal => "unmatched_internal"

/-- `statement_runs.state`. -/
inductive RunState where
  | prepared
  | completed
deriving DecidableEq

/-- `statement_matches.decision`. -/
inductive MatchDecision where
  | exact
  | manual
deriving DecidableEq

/-- `statement_review_items.kind`. -/
inductive ReviewKind where
  | statement
  | ledger
deriving DecidableEq

/-- The kind that a text names. -/
def ReviewKind.ofText? (s : String) : Option ReviewKind :=
  if s = "statement" then some .statement else if s = "ledger" then some .ledger else none

/-- `statement_review_items.status`. -/
inductive ReviewStatus where
  | open
  | reviewedException
  | matched
deriving DecidableEq

/-- The status that a text names. -/
def ReviewStatus.ofText? (s : String) : Option ReviewStatus :=
  if s = "open" then some .open
  else if s = "reviewed_exception" then some .reviewedException
  else if s = "matched" then some .matched
  else none

/-! ## Tables -/

/-- A row of `statement_mappings`. -/
structure StatementMapping where
  id : Uuid
  tenantId : Uuid
  sourceAccountRef : String
  accountId : Uuid
  createdBy : String
deriving DecidableEq

/-- A row of `statement_imports`. -/
structure StatementImport where
  id : Uuid
  tenantId : Uuid
  mappingId : Uuid
  sourceSha256 : Bytes
  sourceBytes : Bytes
  periodStart : Instant
  periodEnd : Instant
  opening : Bigint
  closing : Bigint
  rowCount : ℕ
  createdBy : String
deriving DecidableEq

/-- A row of `statement_rows`. -/
structure ImportedRow extends StatementRow where
  importId : Uuid
  tenantId : Uuid
  mappingId : Uuid
deriving DecidableEq

/-- The unique key `(mapping_id, row_id)` of `statement_rows`. -/
def ImportedRow.key (r : ImportedRow) : Uuid × String := (r.mappingId, r.id)

/-- A row of `statement_runs`. -/
structure StatementRun where
  id : Uuid
  tenantId : Uuid
  importId : Uuid
  mappingId : Uuid
  cutoff : Instant
  correlationId : Uuid
  state : RunState
  result : Option Json
  createdBy : String
  completedAt : Option Instant

/-- A row of `statement_snapshot_items`. -/
structure SnapshotItem where
  runId : Uuid
  tenantId : Uuid
  mappingId : Uuid
  postingId : Uuid
  externalReference : String
  direction : Direction
  amount : Bigint
  currency : String
  occurredAt : Instant
  recordedAt : Instant
deriving DecidableEq

/-- The primary key of `statement_snapshot_items`. -/
def SnapshotItem.key (i : SnapshotItem) : Uuid × Uuid := (i.runId, i.postingId)

/-- A row of `statement_matches`. -/
structure StatementMatch where
  id : Uuid
  tenantId : Uuid
  mappingId : Uuid
  runId : Uuid
  rowId : String
  postingId : Uuid
  decision : MatchDecision
  createdBy : String
deriving DecidableEq

/-- A row of `statement_review_items`. -/
structure ReviewItem where
  tenantId : Uuid
  runId : Uuid
  mappingId : Uuid
  kind : ReviewKind
  itemId : String
  version : Bigint
  classification : Classification
  status : ReviewStatus
  assignee : String
  reason : String
  comment : String
  evidence : String
  updatedBy : String
  updatedAt : Instant
deriving DecidableEq

/-- The primary key of `statement_review_items`. -/
def ReviewItem.key (i : ReviewItem) : Uuid × ReviewKind × String := (i.runId, i.kind, i.itemId)

/-- A row of `statement_review_events`. -/
structure ReviewEvent where
  id : Uuid
  tenantId : Uuid
  runId : Uuid
  kind : ReviewKind
  itemId : String
  fromVersion : Bigint
  toVersion : Bigint
  decision : Json
  actorSubjectId : String
  correlationId : Uuid

/-- The item that an event is about. -/
def ReviewEvent.item (e : ReviewEvent) : Uuid × ReviewKind × String := (e.runId, e.kind, e.itemId)

/-- A row of `statement_commands`. -/
structure StatementCommand where
  tenantId : Uuid
  actorSubjectId : String
  operation : String
  idempotencyKey : String
  fingerprint : Bytes
  response : Json

/-- The primary key of `statement_commands`. -/
def StatementCommand.key (c : StatementCommand) : Uuid × String × String × String :=
  (c.tenantId, c.actorSubjectId, c.operation, c.idempotencyKey)

/-- The ledger with the tables of the reconciliation. -/
structure StatementDb where
  ledger : Db
  mappings : Table StatementMapping.id
  imports : Table StatementImport.id
  statementRows : Table ImportedRow.key
  runs : Table StatementRun.id
  snapshotItems : Table SnapshotItem.key
  statementMatches : Table StatementMatch.id
  reviewItems : Table ReviewItem.key
  reviewEvents : Table ReviewEvent.id
  commands : Table StatementCommand.key

/-- A procedure of the reconciliation. -/
abbrev StatementProc (α : Type) : Type := Txn StatementDb PgError α

/-- A procedure of the ledger that the reconciliation calls. -/
def onLedger {α : Type} (x : Proc α) : StatementProc α :=
  x.zoom StatementDb.ledger fun s l => { s with ledger := l }

/-- What the database adds to the arguments of a call. -/
structure StatementEnv where
  /-- `sha256` of texts. -/
  digest : Digest
  /-- `sha256` of files. -/
  sha256 : Bytes → Bytes
  /-- `ledger_postings.created_at`. -/
  recordedAt : Uuid → Instant
  /-- `x <= y` for texts, in the collation of the database. -/
  collate : String → String → Bool

/-- The digest that identifies the arguments of a command. -/
def StatementEnv.fingerprint (env : StatementEnv) (arguments : List Json) : Bytes :=
  env.digest.sha256 (String.ofList (Json.arr arguments).render)

/-! ## Commands -/

/-- The arguments that every command has. -/
structure StatementMeta where
  tenant : Uuid
  actor : String
  idempotencyKey : String
  correlation : Uuid

/-- `jsonb_build_object('id', resource::text, 'replayed', replayed)`. -/
def receipt (resource : Uuid) (replayed : Bool) : Json :=
  .obj [("id", .str resource.text), ("replayed", .bool replayed)]

/-- A response, marked as that of an earlier command. -/
def asReplay (response : Json) : Json := response.merge (.obj [("replayed", .bool true)])

/-- The error of a command outside of its scope. -/
def statementScopeDenied : PgError := ⟨"42501", "", "statement scope denied"⟩

/-- `statement_existing_command_v1`. -/
def statementExistingCommandV1 (sess : Session) (p : StatementMeta) (op : String) (fp : Bytes) :
    StatementProc (Option Json) := do
  Txn.raiseIf (¬sess.Allows p.tenant ∨ p.actor ≠ sess.actorId) statementScopeDenied
  Txn.raiseIf (op ∉ ["mapping", "import", "prepare", "review"] ∨ ¬IsKey p.idempotencyKey ∨
    fp.length ≠ 32) ⟨"22023", "", "invalid statement command"⟩
  let s ← Txn.get
  match s.commands.find? (p.tenant, p.actor, op, p.idempotencyKey) with
  | none => pure none
  | some previous => do
    Txn.raiseIf (previous.fingerprint ≠ fp)
      ⟨"23505", "statement_intent_conflict", "statement intent conflict"⟩
    pure (some (asReplay previous.response))

/-- The audit entry of a command. -/
def statementAudit (id tenant : Uuid) (actor event : String) (resource correlation : Uuid)
    (metadata : List (String × Json)) (now : Instant) : AuditEvent where
  id := id
  tenantId := tenant
  actorSubjectId := some actor
  eventType := "statement." ++ event
  targetType := "statement"
  targetId := some resource.text
  outcome := "succeeded"
  correlationId := correlation
  metadata := .obj metadata
  occurredAt := now

/-- What a command draws: the identifier of its audit entry, and the clock. -/
structure CommandIds where
  audit : Uuid
  now : Instant

/-- `statement_store_command_v1`. -/
def statementStoreCommandV1 (sess : Session) (p : StatementMeta) (op : String) (fp : Bytes)
    (resource : Uuid) (ids : CommandIds) : StatementProc Json := do
  let s ← Txn.get
  let t ← Txn.orRaise (s.commands.insert? ⟨p.tenant, p.actor, op, p.idempotencyKey, fp,
    receipt resource false⟩) (uniqueViolation "statement_commands_pkey")
  Txn.set { s with commands := t }
  onLedger (controlledAppendAuditV1 sess (statementAudit ids.audit p.tenant p.actor op resource
    p.correlation [("operation", .str op)] ids.now))
  pure (receipt resource false)

/-- A command that runs only if it was not stored before. -/
def statementCommand (sess : Session) (p : StatementMeta) (op : String) (fp : Bytes)
    (body : StatementProc Json) : StatementProc Json := do
  let previous ← statementExistingCommandV1 sess p op fp
  match previous with
  | some response => pure response
  | none => body

/-! ## Mappings -/

/-- The mapping of a tenant. -/
def StatementDb.mappingOf (s : StatementDb) (tenant : Uuid) : Option StatementMapping :=
  s.mappings.rows.find? fun m => m.tenantId = tenant

/-- The mapping that is there already must be the same; otherwise a new one is written. -/
def fixMapping (p : StatementMeta) (account : Uuid) (sourceRef : String) (id : Uuid) :
    StatementProc Uuid := do
  let s ← Txn.get
  match s.mappingOf p.tenant with
  | some m => do
    Txn.raiseIf (m.accountId ≠ account ∨ m.sourceAccountRef ≠ sourceRef)
      ⟨"23505", "", "mapping is already fixed"⟩
    pure m.id
  | none => do
    let t ← Txn.orRaise (s.mappings.insert? ⟨id, p.tenant, sourceRef, account, p.actor⟩)
      (uniqueViolation "statement_mappings_pkey")
    Txn.set { s with mappings := t }
    pure id

/-- `controlled_statement_mapping_v1`. -/
def controlledStatementMappingV1 (env : StatementEnv) (sess : Session) (p : StatementMeta)
    (account : Uuid) (sourceRef : String) (id : Uuid) (ids : CommandIds) : StatementProc Json :=
  let fp := env.fingerprint [.str account.text, .str sourceRef]
  statementCommand sess p "mapping" fp do
    let s ← Txn.get
    Txn.raiseIf (¬IsToken sourceRef ∨ ¬∃ x, s.ledger.accounts.find? account = some x ∧
      x.tenantId = p.tenant ∧ x.currency = "INR" ∧ x.status = .active)
      ⟨"22023", "", "invalid statement mapping"⟩
    let mapping ← fixMapping p account sourceRef id
    statementStoreCommandV1 sess p "mapping" fp mapping ids

/-! ## Imports -/

/-- A parsed row as it is stored. -/
def StatementRow.stored (r : StatementRow) (importId tenant mapping : Uuid) : ImportedRow :=
  ⟨r, importId, tenant, mapping⟩

/-- The rows of a parsed file. -/
def storeStatement (env : StatementEnv) (p : StatementMeta) (binding : StatementMapping)
    (source : Bytes) (id : Uuid) (st : Statement) : StatementProc Unit := do
  let s ← Txn.get
  Txn.raiseIf (∃ r ∈ s.statementRows.rows, r.mappingId = binding.id ∧
      r.id ∈ st.rows.map StatementRow.id)
    ⟨"23505", "statement_source_row_reused", "statement source row reused"⟩
  let imports ← Txn.orRaise (s.imports.insert? ⟨id, p.tenant, binding.id, env.sha256 source, source,
    st.periodStart, st.periodEnd, st.opening, st.closing, st.rows.length, p.actor⟩)
    (uniqueViolation "statement_imports_pkey")
  let rows ← Txn.orRaise (s.statementRows.insertAll?
      (st.rows.map fun r => r.stored id p.tenant binding.id))
    (uniqueViolation "statement_rows_mapping_id_row_id_key")
  Txn.set { s with imports := imports, statementRows := rows }

/-- The import of a new file. -/
def importSource (env : StatementEnv) (p : StatementMeta) (binding : StatementMapping)
    (source : Bytes) (id : Uuid) : StatementProc Unit := do
  let s ← Txn.get
  Txn.raiseIf (100 ≤ (s.imports.rows.filter fun i => i.tenantId = p.tenant).length)
    ⟨"54000", "", "statement import quota"⟩
  let st ← Txn.ofExcept (importText binding.sourceAccountRef source)
  storeStatement env p binding source id st

/-- `controlled_statement_import_v1`. -/
def controlledStatementImportV1 (env : StatementEnv) (sess : Session) (p : StatementMeta)
    (mapping : Uuid) (source : Bytes) (id : Uuid) (ids : CommandIds) : StatementProc Json := do
  Txn.raiseIf (source.length < 1 ∨ maxSourceBytes < source.length)
    ⟨"22023", "", "statement source size"⟩
  let digest := env.sha256 source
  let fp := env.fingerprint [.str mapping.text, .str (hexText digest)]
  statementCommand sess p "import" fp do
    let s ← Txn.get
    let binding ← Txn.orRaise ((s.mappings.find? mapping).filter fun m => m.tenantId = p.tenant)
      ⟨"P0002", "", "statement mapping not found"⟩
    match s.imports.rows.find? fun i => i.mappingId = mapping ∧ i.sourceSha256 = digest with
    | some i => do
      let response ← statementStoreCommandV1 sess p "import" fp i.id ids
      pure (asReplay response)
    | none => do
      importSource env p binding source id
      statementStoreCommandV1 sess p "import" fp id ids

/-! ## Preparing a run -/

/-- The postings that a run may match: those of the mapped account in the period of the file that
were recorded until now and that no match of the mapping has used. -/
def StatementDb.unmatchedPostings (env : StatementEnv) (s : StatementDb) (source : StatementImport)
    (binding : StatementMapping) (now : Instant) : List Posting :=
  s.ledger.postings.rows.filter fun p =>
    (∃ j, s.ledger.journals.find? p.journalTransactionId = some j ∧
      j.tenantId = source.tenantId) ∧
    p.accountId = binding.accountId ∧ p.currency = "INR" ∧ source.periodStart ≤ p.occurredAt ∧
    p.occurredAt < source.periodEnd ∧ env.recordedAt p.id ≤ now ∧
    ¬∃ used ∈ s.statementMatches.rows, used.mappingId = binding.id ∧ used.postingId = p.id

/-- `COALESCE(j.transfer_id::text, j.funding_event_id::text)`. -/
def Journal.reference? (j : Journal) : Option String :=
  (j.transferId.map Uuid.text) <|> (j.fundingEventId.map Uuid.text)

/-- A posting in the snapshot of a run, if its journal has a reference. -/
def StatementDb.snapshotOf? (env : StatementEnv) (s : StatementDb) (run : StatementRun)
    (p : Posting) : Option SnapshotItem := do
  let j ← s.ledger.journals.find? p.journalTransactionId
  let reference ← j.reference?
  some ⟨run.id, run.tenantId, run.mappingId, p.id, reference, p.direction, p.amount, p.currency,
    p.occurredAt, env.recordedAt p.id⟩

/-- The first 2001 of the postings, by identifier. -/
def firstPostings (postings : List Posting) : List Posting :=
  (postings.mergeSort fun x y => x.id.toNat ≤ y.id.toNat).take 2001

/-- A new run and its snapshot. -/
def prepareSnapshot (env : StatementEnv) (run : StatementRun) (source : StatementImport)
    (binding : StatementMapping) : StatementProc Unit := do
  let s ← Txn.get
  let runs ← Txn.orRaise (s.runs.insert? run) (uniqueViolation "statement_runs_pkey")
  let postings := firstPostings (s.unmatchedPostings env source binding run.cutoff)
  let items ← Txn.orRaise (postings.mapM (s.snapshotOf? env run))
    ⟨"23502", "", "null value in column external_reference"⟩
  Txn.raiseIf (∃ i ∈ items, (i.amount : ℤ) ≤ 0)
    (checkViolation "statement_snapshot_items_amount_minor_check")
  let snapshot ← Txn.orRaise (s.snapshotItems.insertAll? items)
    (uniqueViolation "statement_snapshot_items_pkey")
  Txn.raiseIf (2000 < items.length) ⟨"54000", "", "statement snapshot limit"⟩
  Txn.set { s with runs := runs, snapshotItems := snapshot }

/-- `controlled_statement_prepare_v1`. -/
def controlledStatementPrepareV1 (env : StatementEnv) (sess : Session) (p : StatementMeta)
    (sourceImport : Uuid) (cutoff : Instant) (id : Uuid) (ids : CommandIds) : StatementProc Json :=
  let fp := env.fingerprint [.str sourceImport.text, .num 1]
  statementCommand sess p "prepare" fp do
    let s ← Txn.get
    let source ← Txn.orRaise ((s.imports.find? sourceImport).filter fun i => i.tenantId = p.tenant)
      ⟨"P0002", "", "statement import not found"⟩
    let binding ← Txn.orRaise ((s.mappings.find? source.mappingId).filter fun m =>
      m.tenantId = p.tenant) ⟨"23502", "", "null value in column mapping_id"⟩
    match s.runs.rows.find? fun r => r.importId = sourceImport with
    | some r => do
      let response ← statementStoreCommandV1 sess p "prepare" fp r.id ids
      pure (asReplay response)
    | none => do
      prepareSnapshot env ⟨id, p.tenant, sourceImport, binding.id, cutoff, p.correlation, .prepared,
        none, p.actor, none⟩ source binding
      statementStoreCommandV1 sess p "prepare" fp id ids

/-! ## Completing a run -/

/-- The rows of an import. -/
def StatementDb.rowsOf (s : StatementDb) (importId : Uuid) : List ImportedRow :=
  s.statementRows.rows.filter fun r => r.importId = importId

/-- The snapshot of a run. -/
def StatementDb.itemsOf (s : StatementDb) (run : Uuid) : List SnapshotItem :=
  s.snapshotItems.rows.filter fun i => i.runId = run

/-- The posting has the reference, direction, amount and currency of the row. -/
def SnapshotItem.Fits (i : SnapshotItem) (r : StatementRow) : Prop :=
  i.externalReference = r.reference ∧ i.direction = r.direction ∧ i.amount = r.amount ∧
    i.currency = r.currency

/-- Whether an item fits a row can be decided. -/
instance SnapshotItem.decidableFits (i : SnapshotItem) (r : StatementRow) : Decidable (i.Fits r) :=
  inferInstanceAs (Decidable (_ ∧ _ ∧ _ ∧ _))

/-- Two rows that the same postings fit. -/
def StatementRow.Alike (r r' : StatementRow) : Prop :=
  r'.reference = r.reference ∧ r'.direction = r.direction ∧ r'.amount = r.amount ∧
    r'.currency = r.currency

/-- Whether two rows are alike can be decided. -/
instance StatementRow.decidableAlike (r r' : StatementRow) : Decidable (r.Alike r') :=
  inferInstanceAs (Decidable (_ ∧ _ ∧ _ ∧ _))

/-- `candidate_ids`, by identifier. -/
def StatementDb.candidates (s : StatementDb) (run : Uuid) (r : StatementRow) : List Uuid :=
  (((s.itemsOf run).filter fun i => i.Fits r).map SnapshotItem.postingId).mergeSort
    fun x y => x.toNat ≤ y.toNat

/-- `source_count`. -/
def StatementDb.sourceCount (s : StatementDb) (importId : Uuid) (r : StatementRow) : ℕ :=
  ((s.rowsOf importId).filter fun x => r.Alike x.toStatementRow).length

/-- `expected`, as the frozen snapshot gives it. -/
def StatementDb.expected (s : StatementDb) (run : StatementRun) (r : StatementRow) :
    Classification :=
  if (s.candidates run.id r).length = 1 ∧ s.sourceCount run.importId r = 1 then .matched
  else if 0 < (s.candidates run.id r).length then .ambiguous
  else if ∃ i ∈ s.itemsOf run.id, i.externalReference = r.reference then
    .amountOrDirectionDifference
  else .unmatchedExternal

/-- The arguments of `controlled_statement_complete_v1`. -/
structure CompleteRequest where
  tenant : Uuid
  actor : String
  targetRun : Uuid
  proposed : Json

/-- What a completion draws: the identifier of the match of each row, that of the audit entry, and
the clock. -/
structure CompleteIds extends CommandIds where
  statementMatch : String → Uuid
  completedAt : Instant

/-- The elements of a field that is an array. -/
def Json.items? (doc : Json) (k : String) : Option (List Json) :=
  match doc.get? k with
  | some (.arr items) => some items
  | _ => none

/-- The elements of an array of texts. -/
def Json.texts? : Json → Option (List String)
  | .arr items => items.mapM fun
    | .str s => some s
    | _ => none
  | _ => none

/-- The error of a result that is not of the form that is asked for. -/
def invalidMatchResult : PgError := ⟨"22023", "", "invalid statement match result"⟩

/-- The error of a match that is not that of the snapshot. -/
def matchDiffers : PgError := ⟨"22023", "", "match differs from frozen snapshot"⟩

/-- The error of a result that leaves out an exact match. -/
def missingExactMatch : PgError := ⟨"22023", "", "missing exact match"⟩

/-- The error of a match that is not the only one. -/
def nonuniqueMatch : PgError := ⟨"22023", "", "nonunique proposed match"⟩

/-- The error of a result with matches of no row. -/
def extraneousMatches : PgError := ⟨"22023", "", "extraneous proposed matches"⟩

/-- Two matches of a mapping may not share a row or a posting. -/
def StatementMatch.Clashes (m m' : StatementMatch) : Prop :=
  m'.mappingId = m.mappingId ∧ (m'.rowId = m.rowId ∨ m'.postingId = m.postingId)

/-- Whether two matches clash can be decided. -/
instance StatementMatch.decidableClashes (m m' : StatementMatch) : Decidable (m.Clashes m') :=
  inferInstanceAs (Decidable (_ ∧ _))

/-- `INSERT INTO statement_matches`. -/
def insertMatch (m : StatementMatch) : StatementProc Unit := do
  let s ← Txn.get
  Txn.raiseIf (∃ x ∈ s.statementMatches.rows, m.Clashes x)
    (uniqueViolation "statement_matches_mapping_id_row_id_key")
  let t ← Txn.orRaise (s.statementMatches.insert? m) (uniqueViolation "statement_matches_pkey")
  Txn.set { s with statementMatches := t }

/-- A review item as a completion writes it. -/
def newItem (run : StatementRun) (actor : String) (now : Instant) (kind : ReviewKind)
    (itemId : String) (classification : Classification) : ReviewItem where
  tenantId := run.tenantId
  runId := run.id
  mappingId := run.mappingId
  kind := kind
  itemId := itemId
  version := .zero
  classification := classification
  status := if classification = .matched then .matched else .open
  assignee := ""
  reason := ""
  comment := ""
  evidence := ""
  updatedBy := actor
  updatedAt := now

/-- The variables of the loop over the rows. -/
structure RunProgress where
  rowResults : List Json
  matchResults : List Json
  matchedCount : ℕ

/-- The end of the loop's body: the result of a row and its review item. -/
def finishRow (run : StatementRun) (actor : String) (now : Instant) (r : ImportedRow)
    (status : Classification) (acc : RunProgress) : StatementProc RunProgress := do
  let s ← Txn.get
  let t ← Txn.orRaise (s.reviewItems.insert? (newItem run actor now .statement r.id status))
    (uniqueViolation "statement_review_items_pkey")
  Txn.set { s with reviewItems := t }
  let candidates := (s.candidates run.id r.toStatementRow).map fun c => Json.str c.text
  pure { acc with rowResults := acc.rowResults ++ [.obj [("row_id", .str r.id),
    ("status", .str status.text), ("candidates", .arr candidates)]] }

/-- The match of a row whose only candidate is `chosen`, unless another run has used it. -/
def consumeRow (run : StatementRun) (actor : String) (ids : CompleteIds) (r : ImportedRow)
    (chosen : Uuid) (acc : RunProgress) : StatementProc RunProgress := do
  let s ← Txn.get
  if ∃ m ∈ s.statementMatches.rows, m.mappingId = run.mappingId ∧ m.postingId = chosen then
    finishRow run actor ids.now r .alreadyConsumed acc
  else do
    insertMatch ⟨ids.statementMatch r.id, run.tenantId, run.mappingId, run.id, r.id, chosen, .exact,
      actor⟩
    finishRow run actor ids.now r .matched { acc with
      matchResults := acc.matchResults ++
        [.obj [("row_id", .str r.id), ("posting_id", .str chosen.text)]] }

/-- The body of the loop over the rows. -/
def completeRow (run : StatementRun) (actor : String) (ids : CompleteIds) (rows links : List Json)
    (acc : RunProgress) (r : ImportedRow) : StatementProc RunProgress := do
  let s ← Txn.get
  let candidates := s.candidates run.id r.toStatementRow
  let expected := s.expected run r.toStatementRow
  let observed ← Txn.orRaise (rows.find? fun item => item.text? "row_id" = some r.id) matchDiffers
  Txn.raiseIf (observed.text? "status" ≠ some expected.text ∨
    (observed.get? "candidates").bind Json.texts? ≠ some (candidates.map Uuid.text)) matchDiffers
  if expected = .matched then do
    let chosen ← Txn.orRaise candidates.head? missingExactMatch
    Txn.raiseIf ((links.filter fun item => item.text? "row_id" = some r.id ∧
      item.text? "posting_id" = some chosen.text).length ≠ 1) missingExactMatch
    consumeRow run actor ids r chosen { acc with matchedCount := acc.matchedCount + 1 }
  else do
    Txn.raiseIf (∃ item ∈ links, item.text? "row_id" = some r.id) nonuniqueMatch
    finishRow run actor ids.now r expected acc

/-- The items of a run that it has not matched, by identifier. -/
def StatementDb.unmatchedItems (s : StatementDb) (run : Uuid) : List SnapshotItem :=
  ((s.itemsOf run).filter fun i =>
    ¬∃ m ∈ s.statementMatches.rows, m.runId = run ∧ m.postingId = i.postingId).mergeSort
    fun x y => x.postingId.toNat ≤ y.postingId.toNat

/-- What a completion says of an item that it has not matched. -/
def StatementDb.ledgerClassification (s : StatementDb) (mapping : Uuid) (i : SnapshotItem) :
    Classification :=
  if ∃ m ∈ s.statementMatches.rows, m.mappingId = mapping ∧ m.postingId = i.postingId then
    .alreadyConsumed
  else .unmatchedInternal

/-- The review items of unmatched postings, and the end of the run. -/
def finishRun (run : StatementRun) (actor : String) (ids : CompleteIds) (done : RunProgress) :
    StatementProc Unit := do
  let s ← Txn.get
  let unmatched := s.unmatchedItems run.id
  let items ← Txn.orRaise (s.reviewItems.insertAll? (unmatched.map fun i =>
      newItem run actor ids.now .ledger i.postingId.text (s.ledgerClassification run.mappingId i)))
    (uniqueViolation "statement_review_items_pkey")
  let result := Json.obj [("rows", .arr done.rowResults), ("matches", .arr done.matchResults),
    ("unmatched_postings", .arr (unmatched.map fun i => .str i.postingId.text))]
  Txn.set { s with
    reviewItems := items
    runs := s.runs.update run.id (fun x =>
      { x with state := .completed, result := some result, completedAt := some ids.completedAt }) }

/-- A proposal as the procedure takes it apart: as many rows as the import has, each another, and
the matches. -/
def StatementDb.proposal? (s : StatementDb) (run : StatementRun) (proposed : Json) :
    Option (List Json × List Json) := do
  let rows ← proposed.items? "rows"
  let links ← proposed.items? "matches"
  if proposed.size ≤ 1048576 ∧ rows.length = (s.rowsOf run.importId).length ∧
      (rows.filterMap fun item => item.text? "row_id").dedup.length = rows.length then
    some (rows, links)
  else none

/-- `controlled_statement_complete_v1`. -/
def controlledStatementCompleteV1 (env : StatementEnv) (sess : Session) (p : CompleteRequest)
    (ids : CompleteIds) : StatementProc Json := do
  Txn.raiseIf (¬sess.Allows p.tenant ∨ p.actor ≠ sess.actorId) statementScopeDenied
  let s ← Txn.get
  let run ← Txn.orRaise ((s.runs.find? p.targetRun).filter fun r => r.tenantId = p.tenant)
    ⟨"P0002", "", "statement run not found"⟩
  Txn.raiseIf (run.createdBy ≠ p.actor) ⟨"42501", "", "statement run owner differs"⟩
  if run.state = .completed then pure (receipt p.targetRun true)
  else do
    let (rows, links) ← Txn.orRaise (s.proposal? run p.proposed) invalidMatchResult
    let done ← ((s.rowsOf run.importId).mergeSort fun x y => env.collate x.id y.id).foldlM
      (completeRow run p.actor ids rows links) ⟨[], [], 0⟩
    Txn.raiseIf (links.length ≠ done.matchedCount) extraneousMatches
    finishRun run p.actor ids done
    onLedger (controlledAppendAuditV1 sess (statementAudit ids.audit p.tenant p.actor "completed"
      p.targetRun run.correlationId [("rule_version", .num 1)] ids.now))
    pure (receipt p.targetRun false)

/-! ## Reviews -/

/-- The bytes that `uuid_in` reads: pairs of hexadecimal digits. A hyphen may follow every second
pair except the last. -/
def uuidBytes : ℕ → ℕ → List Char → Option (ℕ × List Char)
  | 0, acc, cs => some (acc, cs)
  | n + 1, acc, x :: y :: cs => do
    let high ← hexValue? x
    let low ← hexValue? y
    let rest := if n % 2 = 0 ∧ n ≠ 0 ∧ cs.head? = some '-' then cs.tail else cs
    uuidBytes n (acc * 256 + (high * 16 + low)) rest
  | _, _, _ => none

/-- `s::uuid`, with or without braces. -/
def castUuid (s : String) : Option Uuid := do
  let (cs, stop) := match s.toList with
    | '\x7b' :: cs => (cs, ['\x7d'])
    | cs => (cs, [])
  let (n, rest) ← uuidBytes 16 0 cs
  if h : n < 2 ^ 128 then if rest = stop then some ⟨n, h⟩ else none else none

/-- The value of a field that is a text. -/
def Json.string? (doc : Json) (k : String) : Option String :=
  match doc.get? k with
  | some (.str s) => some s
  | _ => none

/-- The keys that a decision may have. -/
def reviewKeys : List String :=
  ["kind", "item_id", "expected_version", "status", "assignee", "reason", "comment", "evidence",
    "posting_id"]

/-- `s ~ '^(0|[1-9][0-9]{0,18})$'`. -/
def IsVersion (s : String) : Prop := s = "0" ∨ IsUnsigned s

/-- Whether a text is a version can be decided. -/
instance IsVersion.decidable (s : String) : Decidable (IsVersion s) :=
  inferInstanceAs (Decidable (_ ∨ _))

/-- `s ~ '^[a-z][a-z_]{0,63}$'`. -/
def IsReason (s : String) : Prop :=
  1 ≤ s.toList.length ∧ s.toList.length ≤ 64 ∧
    (∀ c, s.toList.head? = some c → 'a' ≤ c ∧ c ≤ 'z') ∧
    ∀ c ∈ s.toList, ('a' ≤ c ∧ c ≤ 'z') ∨ c = '_'

/-- Whether a text is a reason can be decided. -/
instance IsReason.decidable (s : String) : Decidable (IsReason s) :=
  inferInstanceAs (Decidable (_ ∧ _ ∧ (∀ c, _ = some c → _) ∧ ∀ c ∈ _, _))

/-- `s ~ '^/(transfers|funding|reconciliation)/[A-Za-z0-9/_-]+$'`. -/
def IsEvidence (s : String) : Prop :=
  ∃ area ∈ ["/transfers/", "/funding/", "/reconciliation/"], area.toList <+: s.toList ∧
    s.toList.drop area.toList.length ≠ [] ∧
    ∀ c ∈ s.toList.drop area.toList.length,
      c.isAlphanum ∨ c = '/' ∨ c = '_' ∨ c = '-'

/-- Whether a text is evidence can be decided. -/
instance IsEvidence.decidable (s : String) : Decidable (IsEvidence s) :=
  inferInstanceAs (Decidable (∃ area ∈ _, _ ∧ _ ∧ ∀ c ∈ _, _))

/-- The fields of a decision. -/
structure ReviewDecision where
  kind : Option ReviewKind
  itemId : Option String
  expectedVersion : String
  status : Option ReviewStatus
  assignee : String
  reason : String
  comment : String
  evidence : String
  /-- `NULLIF(decision->>'posting_id', '')`. -/
  postingId : Option String

/-- A decision that passes the checks of its fields. A kind or a status that is missing passes them,
because a comparison with `NULL` is not true. -/
def reviewDecision? (doc : Json) : Option ReviewDecision :=
  match doc with
  | .obj fields => do
    let version ← doc.string? "expected_version"
    let assignee ← doc.string? "assignee"
    let reason ← doc.string? "reason"
    let comment ← doc.string? "comment"
    let evidence ← doc.string? "evidence"
    let kind := doc.text? "kind"
    let status := doc.text? "status"
    if doc.size ≤ 4096 ∧ (∀ f ∈ fields, f.1 ∈ reviewKeys) ∧
        (∀ k, kind = some k → ReviewKind.ofText? k ≠ none) ∧
        (∀ k, status = some k → ReviewStatus.ofText? k ≠ none) ∧ IsVersion version ∧
        assignee.utf8ByteSize ≤ 256 ∧ ¬HasControl assignee ∧ IsReason reason ∧
        comment.utf8ByteSize ≤ 512 ∧ evidence.utf8ByteSize ≤ 256 ∧
        (evidence = "" ∨ IsEvidence evidence) then
      some ⟨kind.bind ReviewKind.ofText?, doc.text? "item_id", version,
        status.bind ReviewStatus.ofText?, assignee, reason, comment, evidence,
        (doc.text? "posting_id").filter (· ≠ "")⟩
    else none
  | _ => none

/-- What a review draws: the identifiers of a match, of its two events and of the audit entry, and
the clock. -/
structure ReviewIds extends CommandIds where
  statementMatch : Uuid
  event : Uuid
  ledgerEvent : Uuid

/-- `NULLIF(decision->>'posting_id', '')::uuid`. -/
def castPosting : Option String → StatementProc (Option Uuid)
  | none => pure none
  | some s => do
    let u ← Txn.orRaise (castUuid s) ⟨"22P02", "", "invalid input syntax for type uuid"⟩
    pure (some u)

/-- The item that a decision names. -/
def StatementDb.reviewed? (s : StatementDb) (run : Uuid) (d : ReviewDecision) : Option ReviewItem :=
  match d.kind, d.itemId with
  | some kind, some itemId => s.reviewItems.find? (run, kind, itemId)
  | _, _ => none

/-- The posting that a row of the run is matched with; it is looked up for rows only. -/
def StatementDb.existingPosting (s : StatementDb) (item : ReviewItem) : Option Uuid :=
  match item.kind with
  | .statement => (s.statementMatches.rows.find? fun m =>
      m.runId = item.runId ∧ m.rowId = item.itemId).map StatementMatch.postingId
  | .ledger => none

/-- `UPDATE statement_review_items` of an item as `next`, with the event that reports it. -/
def advanceItem (p : StatementMeta) (item next : ReviewItem) (event : Uuid) (decision : Json) :
    StatementProc Unit := do
  let version ← Txn.orRaise (Bigint.ofInt? (item.version + 1)) outOfRange
  let s ← Txn.get
  let events ← Txn.orRaise (s.reviewEvents.insert? ⟨event, p.tenant, item.runId, item.kind,
    item.itemId, item.version, version, decision, p.actor, p.correlation⟩)
    (uniqueViolation "statement_review_events_pkey")
  Txn.set { s with
    reviewItems := s.reviewItems.replace { next with version := version }
    reviewEvents := events }

/-- The error of a decision in place of a recorded match. -/
def replacedMatch : PgError := ⟨"23505", "", "a recorded match cannot be replaced"⟩

/-- The error of a link between different amounts or directions. -/
def linkDiffers : PgError := ⟨"22023", "", "manual link differs in money or direction"⟩

/-- A row that is matched stays matched with the same posting. -/
def keepMatch (d : ReviewDecision) : Option Uuid → StatementProc Unit
  | none => pure ()
  | some posting => do
    let linked ← castPosting d.postingId
    Txn.raiseIf ((∃ st, d.status = some st ∧ st ≠ .matched) ∨ linked ≠ some posting) replacedMatch

/-- The manual match of a row, and the review item of its posting. -/
def linkPosting (p : StatementMeta) (run : StatementRun) (item : ReviewItem) (target : Uuid)
    (ids : ReviewIds) : StatementProc Unit := do
  insertMatch ⟨ids.statementMatch, p.tenant, run.mappingId, run.id, item.itemId, target, .manual,
    p.actor⟩
  let s ← Txn.get
  match s.reviewItems.find? (run.id, .ledger, target.text) with
  | none => pure ()
  | some ledgerItem =>
    advanceItem p ledgerItem { ledgerItem with
      status := .matched, reason := "linked_statement", updatedBy := p.actor, updatedAt := ids.now }
      ids.ledgerEvent (.obj [("reason", .str "linked_statement"), ("status", .str "matched")])

/-- The part of a review that links a posting. -/
def reviewLink (p : StatementMeta) (run : StatementRun) (item : ReviewItem) (d : ReviewDecision)
    (existing : Option Uuid) (ids : ReviewIds) : StatementProc Unit :=
  if d.status = some .matched then do
    Txn.raiseIf (item.kind ≠ .statement ∨ d.postingId = none)
      ⟨"22023", "", "manual statement link required"⟩
    let linked ← castPosting d.postingId
    let target ← Txn.orRaise linked ⟨"22023", "", "manual statement link required"⟩
    let s ← Txn.get
    let snapshot ← Txn.orRaise (s.snapshotItems.find? (run.id, target)) linkDiffers
    Txn.raiseIf (∃ r, (s.rowsOf run.importId).find? (·.id = item.itemId) = some r ∧
      (r.amount ≠ snapshot.amount ∨ r.direction ≠ snapshot.direction ∨
        r.currency ≠ snapshot.currency)) linkDiffers
    match existing with
    | some _ => pure ()
    | none => linkPosting p run item target ids
  else Txn.raiseIf (d.postingId ≠ none) ⟨"22023", "", "only matched decisions link a posting"⟩

/-- The error of a review of another version than the current one. -/
def staleReview : PgError :=
  ⟨"23505", "statement_review_version", "stale statement review version"⟩

/-- `controlled_statement_review_v1`. -/
def controlledStatementReviewV1 (env : StatementEnv) (sess : Session) (p : StatementMeta)
    (targetRun : Uuid) (decision : Json) (ids : ReviewIds) : StatementProc Json :=
  let fp := env.fingerprint [.str targetRun.text, decision]
  statementCommand sess p "review" fp do
    let d ← Txn.orRaise (reviewDecision? decision) ⟨"22023", "", "invalid statement review"⟩
    let expectedVersion ← Txn.orRaise (castBigint d.expectedVersion) outOfRange
    let s ← Txn.get
    let run ← Txn.orRaise ((s.runs.find? targetRun).filter fun r =>
      r.tenantId = p.tenant ∧ r.state = .completed)
      ⟨"P0002", "", "completed statement run not found"⟩
    let item ← Txn.orRaise ((s.reviewed? targetRun d).filter fun i => i.tenantId = p.tenant)
      ⟨"P0002", "", "statement review item not found"⟩
    Txn.raiseIf (item.version ≠ expectedVersion ∨ (item.version : ℤ) = 2 ^ 63 - 1) staleReview
    Txn.raiseIf (d.assignee ≠ "" ∧ ¬∃ r ∈ s.ledger.settings.subjectRoles, r.tenantId = p.tenant ∧
      r.subjectId = d.assignee) ⟨"22023", "", "assignee is not in tenant"⟩
    let existing := s.existingPosting item
    keepMatch d existing
    reviewLink p run item d existing ids
    let status ← Txn.orRaise d.status ⟨"23502", "", "null value in column status"⟩
    advanceItem p item { item with
      status := status, assignee := d.assignee, reason := d.reason, comment := d.comment
      evidence := d.evidence, updatedBy := p.actor, updatedAt := ids.now } ids.event decision
    statementStoreCommandV1 sess p "review" fp targetRun ids.toCommandIds

/-! ## Histories -/

/-- One call, with the values that it draws. -/
inductive StatementCall where
  | ledger (c : Call)
  | mapping (sess : Session) (p : StatementMeta) (account : Uuid) (sourceRef : String) (id : Uuid)
      (ids : CommandIds)
  | importFile (sess : Session) (p : StatementMeta) (mapping : Uuid) (source : Bytes) (id : Uuid)
      (ids : CommandIds)
  | prepare (sess : Session) (p : StatementMeta) (sourceImport : Uuid) (cutoff : Instant) (id : Uuid)
      (ids : CommandIds)
  | complete (sess : Session) (p : CompleteRequest) (ids : CompleteIds)
  | review (sess : Session) (p : StatementMeta) (targetRun : Uuid) (decision : Json)
      (ids : ReviewIds)

/-- The procedure of a call. -/
def execStatement (env : StatementEnv) : StatementCall → StatementProc Unit
  | .ledger c => onLedger (exec env.digest c)
  | .mapping sess p account sourceRef id ids =>
    Txn.discard (controlledStatementMappingV1 env sess p account sourceRef id ids)
  | .importFile sess p mapping source id ids =>
    Txn.discard (controlledStatementImportV1 env sess p mapping source id ids)
  | .prepare sess p sourceImport cutoff id ids =>
    Txn.discard (controlledStatementPrepareV1 env sess p sourceImport cutoff id ids)
  | .complete sess p ids => Txn.discard (controlledStatementCompleteV1 env sess p ids)
  | .review sess p targetRun decision ids =>
    Txn.discard (controlledStatementReviewV1 env sess p targetRun decision ids)

/-- The database before its first statement: a provisioned ledger, and nothing to reconcile. -/
structure StatementDb.Initial (s : StatementDb) : Prop where
  ledger : s.ledger.Provisioned
  mappings : s.mappings.rows = []
  imports : s.imports.rows = []
  statementRows : s.statementRows.rows = []
  runs : s.runs.rows = []
  snapshotItems : s.snapshotItems.rows = []
  statementMatches : s.statementMatches.rows = []
  reviewItems : s.reviewItems.rows = []
  reviewEvents : s.reviewEvents.rows = []
  commands : s.commands.rows = []

end LedgerSync
