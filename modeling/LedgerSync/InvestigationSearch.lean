import LedgerSync.AccountCommands
import LedgerSync.ApprovalInbox
import LedgerSync.Lib.Framing
import LedgerSync.Lib.Paging
import LedgerSync.Reconciliation
import LedgerSync.Workspaces

/-!
# Investigation search

A search finds records of several kinds by an identifier or by a reference. The database returns at
most four rows for each result that is asked for, and one more; the service keeps the first row of
each identity and says that it left results out when more are kept than were asked for. It does not
look whether the database had more rows. So a match is hidden when the rows that are read have few
identities, as those of the audit events of one correlation and target do
(`search_complete_iff`).
-/

namespace LedgerSync

open Lib

/-! ## Records -/

/-- A row of `accounts`, as the search reads it. -/
structure SearchedAccount extends Account where
  createdAt : Instant

/-- A row of `outbox_events`, as the search reads it. -/
structure SearchedEvent extends OutboxEvent where
  publishedAt : Option Instant
  deadAt : Option Instant
  lastErrorCode : Option String
  attemptCount : ℕ

/-- A row of `reconciliation_runs`, as the search reads it. -/
structure SearchedRun where
  id : Uuid
  tenantId : Uuid
  correlationId : Uuid
  status : String
  completedAt : Instant

/-- A row of `reconciliation_mismatches`, as the search reads it. -/
structure SearchedMismatch where
  id : Uuid
  tenantId : Uuid
  runId : Uuid
  classification : String
  createdAt : Instant

/-- The tables that the search reads. -/
structure SearchDb where
  accounts : Table fun a : SearchedAccount => a.id
  accountOwners : List AccountOwner
  transfers : Table Transfer.id
  fundingEvents : Table FundingEvent.id
  outbox : Table fun e : SearchedEvent => e.id
  runs : Table SearchedRun.id
  mismatches : Table SearchedMismatch.id
  corrections : Table Correction.id
  audit : Table AuditEvent.id

/-- `SearchFilter`. -/
structure SearchFilter where
  query : String
  queryKind : String
  limit : ℕ
  access : SearchAccess

/-- A row that the query returns. -/
structure SearchRow where
  recordType : String
  recordId : String
  relatedRecordType : String
  relatedRecordId : String
  safeLabel : String
  status : String
  occurredAt : Instant
deriving DecidableEq

/-- `SearchResult`. -/
structure SearchResult extends SearchRow where
  source : String := "postgresql"
  freshness : String := "search_snapshot"
deriving DecidableEq

/-- `SearchPage`. -/
structure SearchPage where
  results : List SearchResult
  queryKind : String
  generatedAt : Instant
  truncated : Bool

/-! ## The query -/

/-- The text of an identifier that may be missing. -/
def uuidText : Option Uuid → String
  | none => ""
  | some u => u.text

/-- `CASE audit.target_type`. -/
def auditTargetType (targetType : String) : String :=
  if targetType = "account" then "account"
  else if targetType = "transfer" then "transfer"
  else if targetType = "funding_event" then "funding"
  else if targetType = "reconciliation_run" then "reconciliation_run"
  else if targetType = "transfer_correction" then "correction"
  else ""

/-- `CASE WHEN audit.outcome IN (…)`. -/
def auditStatus (outcome : String) : String :=
  if outcome ∈ ["allowed", "denied", "succeeded", "failed", "posted", "rejected"] then outcome
  else "recorded"

/-- The status of an event. -/
def SearchedEvent.status (e : SearchedEvent) : String :=
  if e.publishedAt.isSome then "published"
  else if e.deadAt.isSome then "dead"
  else if e.lastErrorCode.isSome ∧ 0 < e.attemptCount then "retrying"
  else "pending"

namespace SearchFilter

variable (f : SearchFilter)

/-- `lookupID`. -/
def lookupId : String := if f.queryKind = "immutable_id" then toLower f.query else ""

/-- `lookupReference`. -/
def lookupReference : String := if f.queryKind = "immutable_id" then "" else f.query

/-- `NULLIF($3,'')::uuid`. -/
def lookupUuid : Except PgError (Option Uuid) :=
  if f.lookupId = "" then .ok none
  else match castUuid f.lookupId with
    | none => .error ⟨"22P02", "", "invalid input syntax for type uuid"⟩
    | some u => .ok (some u)

end SearchFilter

namespace SearchDb

variable (lower : String → String) (db : SearchDb) (tenantId : Uuid) (actorId : String)
  (access : SearchAccess) (id : Option Uuid) (reference : String)

/-- The actor may read the account, or debit it. -/
def readableBy (accountId : String) : Bool :=
  db.accountOwners.any fun o =>
    o.tenantId = tenantId ∧ o.accountId.text = accountId ∧ o.subjectId = actorId ∧
      o.permission ∈ [.read, .debit]

/-- The rows of accounts. -/
def accountRows : List SearchRow :=
  (db.accounts.rows.filter fun a => access.accounts = true ∧ a.tenantId = tenantId ∧
    a.kind = .customer ∧ db.readableBy tenantId actorId a.id.text ∧
      (id = some a.id ∨ (reference ≠ "" ∧ lower a.externalReference = lower reference))).map fun a =>
    ⟨"account", a.id.text, "", "", "Account", a.status.text, a.createdAt⟩

/-- The rows of transfers. -/
def transferRows : List SearchRow :=
  (db.transfers.rows.filter fun t => access.transfers = true ∧ t.tenantId = tenantId ∧
    id = some t.id).map fun t =>
    ⟨"transfer", t.id.text, "", "", "Transfer", t.status.text, t.completedAt.getD t.createdAt⟩

/-- The rows of funding events. -/
def fundingRows : List SearchRow :=
  (db.fundingEvents.rows.filter fun e => access.funding = true ∧ e.tenantId = tenantId ∧
    (id = some e.id ∨ id = some e.correlationId ∨
      (reference ≠ "" ∧ e.externalReference = reference))).map fun e =>
    ⟨"funding", e.id.text, "account", e.destinationAccountId.text, "Funding record", e.status.text,
      e.updatedAt⟩

/-- The rows of events. -/
def eventRows : List SearchRow :=
  (db.outbox.rows.filter fun e => access.events = true ∧ e.tenantId = tenantId ∧
    id = some e.id).map fun e =>
    ⟨"event", e.id.text,
      if e.transferId.isSome then "transfer" else if e.accountId.isSome then "account" else "",
      uuidText (e.transferId.or e.accountId), e.eventType, e.status, e.occurredAt⟩

/-- The rows of reconciliation runs. -/
def runRows : List SearchRow :=
  (db.runs.rows.filter fun r => access.reconciliation = true ∧ r.tenantId = tenantId ∧
    (id = some r.id ∨ id = some r.correlationId)).map fun r =>
    ⟨"reconciliation_run", r.id.text, "", "", "Reconciliation run", r.status, r.completedAt⟩

/-- The rows of mismatches. -/
def mismatchRows : List SearchRow :=
  (db.mismatches.rows.filter fun m => access.reconciliation = true ∧ m.tenantId = tenantId ∧
    id = some m.id).map fun m =>
    ⟨"reconciliation_mismatch", m.id.text, "reconciliation_run", m.runId.text,
      String.ofList (m.classification.toList.map fun c => if c = '_' then ' ' else c), "mismatch",
      m.createdAt⟩

/-- The rows of corrections. -/
def correctionRows : List SearchRow :=
  (db.corrections.rows.filter fun c => access.corrections = true ∧ c.tenantId = tenantId ∧
    (id = some c.id ∨ id = some c.correlationId)).map fun c =>
    ⟨"correction", c.id.text, "transfer", c.originalTransferId.text, "Transfer correction",
      c.status.text, c.updatedAt⟩

/-- The rows of transfer requests. -/
def requestRows : List SearchRow :=
  (db.audit.rows.filter fun e => e.tenantId = tenantId ∧ id = some e.correlationId ∧
    e.targetId.isSome = true ∧
    ((access.accounts = true ∧ e.targetType = "account" ∧
        db.readableBy tenantId actorId (e.targetId.getD "")) ∨
      (access.transfers = true ∧ e.targetType = "transfer") ∨
      (access.funding = true ∧ e.targetType = "funding_event") ∨
      (access.reconciliation = true ∧ e.targetType = "reconciliation_run") ∨
      (access.corrections = true ∧ e.targetType = "transfer_correction"))).map fun e =>
    ⟨"request_reference", e.correlationId.text, auditTargetType e.targetType, e.targetId.getD "",
      "Request reference", auditStatus e.outcome, e.occurredAt⟩

/-- `matches`, for an identifier or a reference that is looked up. -/
def matchesOf : List SearchRow :=
  db.accountRows lower tenantId actorId access id reference ++ db.transferRows tenantId access id ++
    db.fundingRows tenantId access id reference ++ db.eventRows tenantId access id ++
      db.runRows tenantId access id ++ db.mismatchRows tenantId access id ++
        db.correctionRows tenantId access id ++ db.requestRows tenantId actorId access id

end SearchDb

/-- `matches`, where `lower` is that of the database. -/
def searchMatches (lower : String → String) (db : SearchDb) (tenantId : Uuid) (actorId : String)
    (f : SearchFilter) : Except PgError (List SearchRow) := do
  let id ← f.lookupUuid
  .ok (db.matchesOf lower tenantId actorId f.access id f.lookupReference)

/-- A row that `ORDER BY occurred_at DESC,record_type,record_id` puts before another. -/
def SearchRow.Before (a b : SearchRow) : Prop :=
  b.occurredAt < a.occurredAt ∨ (a.occurredAt = b.occurredAt ∧
    (a.recordType < b.recordType ∨ (a.recordType = b.recordType ∧ a.recordId < b.recordId)))

/-- Whether a row is before another can be decided. -/
instance (a b : SearchRow) : Decidable (a.Before b) :=
  inferInstanceAs (Decidable (_ ∨ (_ ∧ (_ ∨ (_ ∧ _)))))

/-- The rows in an order in which the database may return them. -/
structure InSearchOrder (found rows : List SearchRow) : Prop where
  perm : rows.Perm found
  sorted : rows.Pairwise fun a b => ¬b.Before a

/-! ## The service -/

/-- The key that results are told apart by. -/
def SearchRow.key (r : SearchRow) : String :=
  "|".intercalate [r.recordType, r.recordId, r.relatedRecordType, r.relatedRecordId]

/-- What `Search` makes of the rows that the query returns in this order. -/
def searchPage (f : SearchFilter) (generatedAt : Instant) (rows : List SearchRow) : SearchPage :=
  let results := firstByKey (fun r : SearchResult => r.key)
    ((rows.take (f.limit * 4 + 1)).map fun r => { r with })
  if f.limit < results.length then ⟨results.take f.limit, f.queryKind, generatedAt, true⟩
  else ⟨results, f.queryKind, generatedAt, false⟩

/-! ## Identities -/

section Identities

/-- What a result is told apart by. -/
def SearchRow.identity (r : SearchRow) : String × String × String × String :=
  (r.recordType, r.recordId, r.relatedRecordType, r.relatedRecordId)

/-- The first three parts of the key have no separator in them. -/
structure SearchRow.Separated (r : SearchRow) : Prop where
  recordType : '|' ∉ r.recordType.toList
  recordId : '|' ∉ r.recordId.toList
  relatedRecordType : '|' ∉ r.relatedRecordType.toList

/-- The key of a row is its four texts between bars. -/
theorem SearchRow.toList_key (r : SearchRow) : r.key.toList =
    r.recordType.toList ++ '|' :: (r.recordId.toList ++ '|' :: (r.relatedRecordType.toList ++
      '|' :: r.relatedRecordId.toList)) := by
  simp [SearchRow.key]

/-- Rows whose keys are the same have the same identity. -/
theorem SearchRow.Separated.key_inj {a b : SearchRow} (ha : a.Separated) (hb : b.Separated) :
    a.key = b.key ↔ a.identity = b.identity := by
  constructor
  · intro h
    have hlist := congrArg String.toList h
    rw [a.toList_key, b.toList_key] at hlist
    obtain ⟨htype, hlist⟩ := cons_append_inj ha.recordType hb.recordType hlist
    obtain ⟨hid, hlist⟩ := cons_append_inj ha.recordId hb.recordId hlist
    obtain ⟨hrelated, hlist⟩ := cons_append_inj ha.relatedRecordType hb.relatedRecordType hlist
    simp only [SearchRow.identity, Prod.mk.injEq]
    exact ⟨String.toList_inj.mp htype, String.toList_inj.mp hid, String.toList_inj.mp hrelated,
      String.toList_inj.mp hlist⟩
  · intro h
    simp only [SearchRow.identity, Prod.mk.injEq] at h
    obtain ⟨htype, hid, hrelated, hrelatedId⟩ := h
    rw [SearchRow.key, SearchRow.key, htype, hid, hrelated, hrelatedId]

/-- The text of an identifier has no bar. -/
theorem Uuid.bar_not_mem_text (u : Uuid) : '|' ∉ u.text.toList := u.not_mem_text (by decide)

/-- The rows of the query have no separator where it matters. -/
theorem SearchDb.separated {lower : String → String} {db : SearchDb} {tenantId : Uuid}
    {actorId reference : String} {access : SearchAccess} {id : Option Uuid} {r : SearchRow}
    (h : r ∈ db.matchesOf lower tenantId actorId access id reference) : r.Separated := by
  -- No type contains the bar, nor does the text of an id.
  have hsep : ∀ (recordType relatedType : String) (u : Uuid) (relatedId label status : String)
      (at' : Instant), '|' ∉ recordType.toList → '|' ∉ relatedType.toList →
        (⟨recordType, u.text, relatedType, relatedId, label, status, at'⟩ : SearchRow).Separated :=
    fun _ _ u _ _ _ _ htype hrelated => ⟨htype, u.bar_not_mem_text, hrelated⟩
  unfold SearchDb.matchesOf at h
  simp only [List.mem_append, or_assoc] at h
  rcases h with h | h | h | h | h | h | h | h
  -- One case for each part of the union.
  all_goals obtain ⟨x, -, rfl⟩ := List.mem_map.mp h
  · exact hsep _ _ _ _ _ _ _ (by decide) (by decide)
  · exact hsep _ _ _ _ _ _ _ (by decide) (by decide)
  · exact hsep _ _ _ _ _ _ _ (by decide) (by decide)
  · refine hsep _ _ _ _ _ _ _ (by decide) ?_
    split_ifs <;> decide
  · exact hsep _ _ _ _ _ _ _ (by decide) (by decide)
  · exact hsep _ _ _ _ _ _ _ (by decide) (by decide)
  · exact hsep _ _ _ _ _ _ _ (by decide) (by decide)
  · refine hsep _ _ _ _ _ _ _ (by decide) ?_
    unfold auditTargetType
    split_ifs <;> decide

end Identities

/-! ## Completeness -/

section Completeness

variable {f : SearchFilter} {found rows : List SearchRow}

/-- The rows that are read have no more identities than results are asked for, and a row behind them
has another. -/
def HidesMatch (limit : ℕ) (rows : List SearchRow) : Prop :=
  ((rows.take (limit * 4 + 1)).map SearchRow.identity).toFinset.card ≤ limit ∧
    ∃ m ∈ rows.drop (limit * 4 + 1),
      m.identity ∉ (rows.take (limit * 4 + 1)).map SearchRow.identity

/-- A page that is not truncated has every match. -/
def SearchPage.Complete (found : List SearchRow) (page : SearchPage) : Prop :=
  page.truncated = false → ∀ m ∈ found, ∃ r ∈ page.results, r.identity = m.identity

/-- The results are the first rows of each identity, as many as were asked for. -/
theorem searchPage_eq (generatedAt : Instant) (h : ∀ r ∈ rows, r.Separated) :
    ∃ results : List SearchResult,
      results = firstByKey (fun r : SearchResult => r.identity)
        ((rows.take (f.limit * 4 + 1)).map fun r => { r with }) ∧
      searchPage f generatedAt rows =
        if f.limit < results.length then ⟨results.take f.limit, f.queryKind, generatedAt, true⟩
        else ⟨results, f.queryKind, generatedAt, false⟩ := by
  refine ⟨_, rfl, ?_⟩
  have hsame : firstByKey (fun r : SearchResult => r.key)
      ((rows.take (f.limit * 4 + 1)).map fun r => ({ r with } : SearchResult)) =
        firstByKey (fun r : SearchResult => r.identity)
          ((rows.take (f.limit * 4 + 1)).map fun r => { r with }) := by
    refine firstByKey_congr ?_
    intro a ha b hb
    obtain ⟨x, hx, rfl⟩ := List.mem_map.mp ha
    obtain ⟨y, hy, rfl⟩ := List.mem_map.mp hb
    exact (h x (List.mem_of_mem_take hx)).key_inj (h y (List.mem_of_mem_take hy))
  simp only [searchPage, hsame]

/-- No two results have one identity. -/
theorem searchPage_nodup (generatedAt : Instant) (h : ∀ r ∈ rows, r.Separated) :
    ((searchPage f generatedAt rows).results.map fun r => r.identity).Nodup := by
  obtain ⟨results, hresults, hpage⟩ := searchPage_eq generatedAt h
  have hnodup : (results.map fun r : SearchResult => r.identity).Nodup := by
    rw [hresults]
    exact nodup_firstByKey _
  rw [hpage]
  split_ifs
  · exact hnodup.sublist ((List.take_sublist _ _).map _)
  · exact hnodup

/-- A page has every match unless one is hidden. -/
theorem searchPage_complete_iff (generatedAt : Instant) (h : ∀ r ∈ rows, r.Separated)
    (hperm : rows.Perm found) :
    (searchPage f generatedAt rows).Complete found ↔ ¬HidesMatch f.limit rows := by
  obtain ⟨results, hresults, hpage⟩ := searchPage_eq generatedAt h
  have hread : ((rows.take (f.limit * 4 + 1)).map fun r => ({ r with } : SearchResult)).map
      (fun r => r.identity) = (rows.take (f.limit * 4 + 1)).map SearchRow.identity := by
    rw [List.map_map]
    rfl
  -- What is kept is what was fetched, by identity.
  have hkeys : ∀ k, k ∈ results.map (fun r : SearchResult => r.identity) ↔
      k ∈ (rows.take (f.limit * 4 + 1)).map SearchRow.identity := by
    intro k
    rw [hresults, mem_map_firstByKey, hread]
  have hcard : results.length =
      ((rows.take (f.limit * 4 + 1)).map SearchRow.identity).toFinset.card := by
    rw [hresults, length_firstByKey, hread]
  unfold HidesMatch SearchPage.Complete
  rw [hpage, ← hcard]
  by_cases hmore : f.limit < results.length
  · -- the page says that it is truncated
    rw [if_pos hmore]
    exact iff_of_true (fun h => Bool.noConfusion h) fun h => absurd h.1 (Nat.not_le.mpr hmore)
  -- The page says that it is complete.
  · rw [if_neg hmore]
    constructor
    · rintro hall ⟨-, m, hm, hnot⟩
      obtain ⟨r, hr, hsame⟩ := hall rfl m (hperm.subset (List.mem_of_mem_drop hm))
      exact hnot ((hkeys _).mp (hsame ▸ List.mem_map_of_mem hr))
    · intro hnot _ m hm
      have hm' := hperm.symm.subset hm
      rw [← List.take_append_drop (f.limit * 4 + 1) rows, List.mem_append] at hm'
      have hread : m.identity ∈ (rows.take (f.limit * 4 + 1)).map SearchRow.identity := by
        rcases hm' with hm' | hm'
        · exact List.mem_map_of_mem hm'
        · by_contra hhidden
          exact hnot ⟨Nat.le_of_not_lt hmore, m, hm', hhidden⟩
      obtain ⟨r, hr, hsame⟩ := List.mem_map.mp ((hkeys _).mpr hread)
      exact ⟨r, hr, hsame⟩

end Completeness

/-- **A search that is not truncated has every match** unless the rows that are read have too few
identities, and no two of its results have one identity. -/
theorem search_complete_iff (lower : String → String) (db : SearchDb) (tenantId : Uuid)
    (actorId : String) (f : SearchFilter) (generatedAt : Instant) {found rows : List SearchRow}
    (hfound : searchMatches lower db tenantId actorId f = .ok found)
    (hrows : InSearchOrder found rows) :
    ((searchPage f generatedAt rows).Complete found ∧
      ((searchPage f generatedAt rows).results.map fun r => r.identity).Nodup) ↔
      ¬HidesMatch f.limit rows := by
  have hseparated : ∀ r ∈ rows, r.Separated := by
    intro r hr
    unfold searchMatches at hfound
    rcases hlookup : f.lookupUuid with e | id
    · rw [hlookup] at hfound
      cases hfound
    · rw [hlookup] at hfound
      obtain rfl := Except.ok.inj hfound
      exact SearchDb.separated (hrows.perm.subset hr)
  rw [searchPage_complete_iff generatedAt hseparated hrows.perm,
    and_iff_left (searchPage_nodup generatedAt hseparated)]

namespace Sample

/-- The tenant of the search. -/
def searchTenant : Uuid := uuid 1

/-- The correlation that is looked up. -/
def searchCorrelation : Uuid := uuid 9

/-- A record of the correlation about a transfer. -/
def searchAudit (n : Fin 6) (transfer : Uuid) : AuditEvent where
  id := ⟨n, lt_trans n.isLt (by decide)⟩
  tenantId := searchTenant
  actorSubjectId := some "a"
  eventType := "transfer.read"
  targetType := "transfer"
  targetId := some transfer.text
  outcome := "allowed"
  correlationId := searchCorrelation
  metadata := .null
  occurredAt := 10 + n.val

/-- Five records about one transfer, and an older one about another. -/
def searchDb : SearchDb where
  accounts := .empty
  accountOwners := []
  transfers := .empty
  fundingEvents := .empty
  outbox := .empty
  runs := .empty
  mismatches := .empty
  corrections := .empty
  audit := ⟨[searchAudit 5 (uuid 20), searchAudit 4 (uuid 20),
    searchAudit 3 (uuid 20), searchAudit 2 (uuid 20), searchAudit 1 (uuid 20),
    searchAudit 0 (uuid 21)], by decide⟩

/-- A search for the correlation. -/
def searchFilter (limit : ℕ) : SearchFilter where
  query := "00000000-0000-0000-0000-000000000009"
  queryKind := "immutable_id"
  limit := limit
  access := ⟨false, true, false, false, false, false⟩

/-- What the query returns for a record about a transfer. -/
def searchRow (transfer : Uuid) (at' : Instant) : SearchRow :=
  ⟨"request_reference", searchCorrelation.text, "transfer", transfer.text, "Request reference",
    "allowed", at'⟩

/-- What the query returns. -/
def searchRows : List SearchRow :=
  [15, 14, 13, 12, 11].map (searchRow (uuid 20)) ++ [searchRow (uuid 21) 10]

/-- The sample looks for a correlation. -/
theorem lookupUuid_searchFilter (limit : ℕ) :
    (searchFilter limit).lookupUuid = .ok (some searchCorrelation) := by
  have hcast : (toLower "00000000-0000-0000-0000-000000000009" ≠ "") ∧
      castUuid (toLower "00000000-0000-0000-0000-000000000009") = some searchCorrelation := by
    decide +kernel
  have hid : (searchFilter limit).lookupId = toLower "00000000-0000-0000-0000-000000000009" :=
    if_pos rfl
  unfold SearchFilter.lookupUuid
  rw [hid, if_neg hcast.1, hcast.2]

/-- The rows that the sample finds. -/
theorem searchMatches_searchDb (limit : ℕ) :
    searchMatches id searchDb searchTenant "a" (searchFilter limit) = .ok searchRows := by
  unfold searchMatches
  rw [lookupUuid_searchFilter]
  rfl

/-- The query returns the rows newest first. -/
theorem inSearchOrder_searchRows : InSearchOrder searchRows searchRows where
  perm := .refl _
  sorted := by decide +kernel

end Sample

/-- With room for two results no match is hidden. -/
theorem search_complete_sample :
    (searchPage (Sample.searchFilter 2) 20 Sample.searchRows).Complete Sample.searchRows :=
  ((search_complete_iff id Sample.searchDb Sample.searchTenant "a" (Sample.searchFilter 2) 20
    (Sample.searchMatches_searchDb 2) Sample.inSearchOrder_searchRows).mpr fun h => by
      obtain ⟨-, m, hm, -⟩ := h
      exact absurd hm List.not_mem_nil).1

/-- With room for one result the transfer of the oldest record is hidden. -/
theorem search_hides_match :
    searchMatches id Sample.searchDb Sample.searchTenant "a" (Sample.searchFilter 1) =
        .ok Sample.searchRows ∧
      InSearchOrder Sample.searchRows Sample.searchRows ∧
      ¬(searchPage (Sample.searchFilter 1) 20 Sample.searchRows).Complete Sample.searchRows := by
  have hhidden : HidesMatch 1 Sample.searchRows := by
    refine ⟨by decide +kernel, Sample.searchRow ⟨21, by decide⟩ 10, List.mem_singleton_self _, ?_⟩
    decide +kernel
  have hseparated : ∀ r ∈ Sample.searchRows, r.Separated := by
    intro r hr
    rw [Sample.searchRows, List.mem_append, List.mem_map, List.mem_singleton] at hr
    rcases hr with ⟨_, -, rfl⟩ | rfl
    all_goals exact ⟨show '|' ∉ "request_reference".toList by decide, Uuid.bar_not_mem_text _,
      show '|' ∉ "transfer".toList by decide⟩
  exact ⟨Sample.searchMatches_searchDb 1, Sample.inSearchOrder_searchRows, fun h =>
    (searchPage_complete_iff 20 hseparated (.refl _)).mp h hhidden⟩

end LedgerSync
