import LedgerSync.Lib.Paging
import LedgerSync.SpreadsheetCells

/-!
# Streamed exports

An export writes the records that the repository delivers page by page, up to a limit of rows, and
says whether it left records out. It is honest about that unless its last record is the last row
that it may write. Then the export of the reconciliation runs with their mismatches says that it
left records out, and those of transfers and of an account's ledger say so too when the repository
hands out a further cursor with the last record (`exports_honest_iff`).
-/

namespace LedgerSync

open Lib

/-! ## Records -/

/-- `TransferSummary`. -/
structure ExportedTransfer where
  id : GoString
  debitAccountId : GoString
  creditAccountId : GoString
  amountMinor : GoString
  currency : GoString
  financialStatus : GoString
  deliveryStatus : GoString
  createdAt : Timestamp
  completedAt : Timestamp
  journalTransactionId : GoString
  rejectionCode : GoString
  correctionId : GoString
  correctionStatus : GoString
  correctionRole : GoString
  originalTransferId : GoString
  compensationTransferId : GoString
  originalJournalId : GoString
  compensationJournalId : GoString

/-- `Entry` of an account's history. -/
structure ExportedEntry where
  transferId : GoString
  direction : GoString
  amount : GoString
  currency : GoString
  status : GoString
  occurredAt : Timestamp
  correctionId : GoString
  correctionStatus : GoString
  correctionRole : GoString
  originalTransferId : GoString
  compensationTransferId : GoString

/-- `ReconciliationRun`. -/
structure ExportedRun where
  id : GoString
  status : GoString
  correlationId : GoString
  scope : GoString
  ledgerWatermark : GoString
  applicationVersion : GoString
  schemaVersion : GoString
  checkedAccountCount : GoString
  postingCount : GoString
  mismatchCount : GoString
  startedAt : Timestamp
  completedAt : Timestamp

/-- `ReconciliationMismatch`. -/
structure ExportedMismatch where
  id : GoString
  accountId : GoString
  classification : GoString
  currency : GoString
  expectedMinor : GoString
  observedMinor : GoString
  observedAvailableMinor : GoString
  balanceVersion : GoString
  createdAt : Timestamp

/-- The errors of an export, over those of the repository. -/
inductive ExportError (ε : Type) where
  | invalidRequest
  /-- `ErrUnavailable`, with what follows it in the message. -/
  | unavailable (what : String)
  | repository (e : ε)

variable {ε : Type}

/-! ## Rows -/

/-- A row of the file. -/
abbrev ExportRow : Type := List GoString

/-- A text of ASCII or of other characters as a Go string. -/
def goString (s : String) : GoString := s.toList.map .char

/-- `SchemaVersion`. -/
def exportSchemaVersion : GoString := goString "2"

/-- `exactCountPattern`. -/
def isExactCount : GoString → Bool
  | [] => false
  | r :: rs =>
    (r.rune = '0' ∧ rs = []) ∨ ('1' ≤ r.rune ∧ r.rune ≤ '9' ∧ rs.all fun x => x.rune.isDigit)

/-- `exactMinorPattern`. -/
def isExactMinor (s : GoString) : Bool :=
  isExactCount s || (s.head?.any (·.rune = '-') && isExactCount s.tail)

/-- `currencyPattern`. -/
def isCurrencyCell (s : GoString) : Bool :=
  s.length = 3 ∧ s.all fun r => 'A' ≤ r.rune ∧ r.rune ≤ 'Z'

/-- `utc`. -/
def utcCell (value : Timestamp) : GoString :=
  if value.micros = 0 then [] else goString (nanoText (value.micros * 1000))

/-- `transferRow`. -/
def transferRow (item : ExportedTransfer) : Except (ExportError ε) ExportRow :=
  if isExactMinor item.amountMinor = false ∨ isCurrencyCell item.currency = false then
    .error (.unavailable "transfer exact fields")
  else .ok [exportSchemaVersion, item.id, item.debitAccountId, item.creditAccountId,
    item.amountMinor, item.currency, safeText item.financialStatus, safeText item.deliveryStatus,
    utcCell item.createdAt, utcCell item.completedAt, item.journalTransactionId,
    safeText item.rejectionCode, item.correctionId, safeText item.correctionStatus,
    safeText item.correctionRole, item.originalTransferId, item.compensationTransferId,
    item.originalJournalId, item.compensationJournalId]

/-- `accountLedgerRow`. -/
def accountLedgerRow (item : ExportedEntry) : Except (ExportError ε) ExportRow :=
  if isExactMinor item.amount = false ∨ isCurrencyCell item.currency = false then
    .error (.unavailable "account ledger exact fields")
  else .ok [exportSchemaVersion, item.transferId, safeText item.direction, item.amount,
    item.currency, safeText item.status, utcCell item.occurredAt, item.correctionId,
    safeText item.correctionStatus, safeText item.correctionRole, item.originalTransferId,
    item.compensationTransferId]

/-- `reconciliationRunRow`. -/
def reconciliationRunRow (item : ExportedRun) : Except (ExportError ε) ExportRow :=
  if [item.checkedAccountCount, item.postingCount, item.mismatchCount].all isExactCount = false then
    .error (.unavailable "reconciliation count")
  else .ok ([exportSchemaVersion, goString "run", item.id, safeText item.status, item.correlationId,
    safeText item.scope, safeText item.ledgerWatermark, safeText item.applicationVersion,
    safeText item.schemaVersion, item.checkedAccountCount, item.postingCount, item.mismatchCount,
    utcCell item.startedAt, utcCell item.completedAt] ++ List.replicate 9 [])

/-- `reconciliationMismatchRow`. -/
def reconciliationMismatchRow (run : ExportedRun) (item : ExportedMismatch) :
    Except (ExportError ε) ExportRow :=
  if [item.expectedMinor, item.observedMinor, item.observedAvailableMinor].all
      (fun minor => minor = [] ∨ isExactMinor minor) = false then
    .error (.unavailable "mismatch exact minor")
  else if item.currency ≠ [] ∧ isCurrencyCell item.currency = false then
    .error (.unavailable "mismatch currency")
  else if item.balanceVersion ≠ [] ∧ isExactCount item.balanceVersion = false then
    .error (.unavailable "mismatch balance version")
  else .ok ([exportSchemaVersion, goString "mismatch", run.id, safeText run.status,
    run.correlationId] ++ List.replicate 9 [] ++ [item.id, item.accountId,
    safeText item.classification, item.currency, item.expectedMinor, item.observedMinor,
    item.observedAvailableMinor, item.balanceVersion, utcCell item.createdAt])

/-! ## The service -/

/-- `TransferFilter`. -/
structure ExportTransferFilter where
  cursor : String
  accountId : String
  status : String
  query : String
  created : Timestamp × Timestamp
  limit : ℕ

/-- `ReconciliationFilter`. -/
structure ReconciliationFilter where
  runId : String
  status : String
  cursor : String
  completed : Timestamp × Timestamp
  limit : ℕ

/-- `Repository`. -/
structure ExportRepository (ε : Type) where
  listTransfers : String → String → ExportTransferFilter → Except ε (List ExportedTransfer × String)
  listAccountHistory : String → String → String → String → ℕ → Except ε (List ExportedEntry × String)
  listReconciliationRuns : String → String → ReconciliationFilter →
    Except ε (List ExportedRun × String)
  listReconciliationMismatches : String → String → GoString → String → ℕ →
    Except ε (List ExportedMismatch × String)

/-- `Service`, whose bounds are those that `NewService` accepts. -/
structure ExportService (ε : Type) where
  repository : ExportRepository ε
  pageSize : ℕ
  maxRows : ℕ
  pageSize_bounds : 1 ≤ pageSize ∧ pageSize ≤ 1000
  maxRows_bounds : 1 ≤ maxRows ∧ maxRows ≤ 100000

/-- `NewService`. -/
def newExportService (repository : ExportRepository ε) (maxRows pageSize : ℤ) :
    Option (ExportService ε) :=
  let maxRows := if maxRows = 0 then 10000 else maxRows
  let pageSize := if pageSize = 0 then 250 else pageSize
  if h : (1 ≤ pageSize ∧ pageSize ≤ 1000) ∧ 1 ≤ maxRows ∧ maxRows ≤ 100000 then
    some ⟨repository, pageSize.toNat, maxRows.toNat, by omega, by omega⟩
  else none

/-- `validate`: the limit of rows. -/
def ExportService.validate (s : ExportService ε) (tenantId : String) (requestedRows : ℤ) :
    Except (ExportError ε) ℕ :=
  if trimSpace tenantId = "" then .error .invalidRequest
  else
    let requestedRows := if requestedRows = 0 then (s.maxRows : ℤ) else requestedRows
    if requestedRows < 1 ∨ s.maxRows < requestedRows then .error .invalidRequest
    else .ok requestedRows.toNat

/-- What an export has come to: the rows behind the header, whose number is `Rows` of the result,
the flag of the result, and the error. The destination takes every write. -/
structure Export (ε : Type) where
  rows : List ExportRow
  truncated : Bool := false
  error : Option (ExportError ε) := none

/-! ## Streaming -/

section Streams

variable {α : Type} (list : String → ℕ → Except (ExportError ε) (List α × String))
  (row : α → Except (ExportError ε) ExportRow)

/-- The records of a page are written until one is refused. -/
def writeItems : List α → List ExportRow → Export ε
  | [], written => { rows := written }
  | item :: items, written =>
    match row item with
    | .error e => { rows := written, error := some e }
    | .ok r => writeItems items (written ++ [r])

/-- What the writing of a page comes to. -/
theorem writeItems_cases (items : List α) (written : List ExportRow) :
    (∃ rs, items.mapM row = .ok rs ∧ rs.length = items.length ∧
      writeItems row items written = { rows := written ++ rs }) ∨
    ∃ e, items.mapM row = .error e ∧ (writeItems row items written).error = some e ∧
      (writeItems row items written).truncated = false := by
  induction items generalizing written with
  | nil => exact .inl ⟨[], rfl, rfl, by rw [writeItems, List.append_nil]⟩
  | cons item items ih =>
    rw [writeItems, List.mapM_cons]
    rcases row item with e | r
    · exact .inr ⟨e, rfl, rfl, rfl⟩
    · rcases ih (written ++ [r]) with ⟨rs, hrs, hlength, hwritten⟩ | ⟨e, he, herror⟩
      · refine .inl ⟨r :: rs, ?_, by rw [List.length_cons, List.length_cons, hlength], ?_⟩
        · rw [hrs]
          rfl
        · show writeItems row items (written ++ [r]) = _
          rw [hwritten, List.append_assoc, List.singleton_append]
      · refine .inr ⟨e, ?_, herror⟩
        rw [he]
        rfl

/-- As many rows as records. -/
theorem length_of_mapM {items : List α} {rs : List ExportRow} (h : items.mapM row = .ok rs) :
    rs.length = items.length := by
  rcases writeItems_cases row items [] with ⟨rs', hrs, hlength, -⟩ | ⟨e, he, -⟩
  · rw [h] at hrs
    rw [Except.ok.inj hrs, hlength]
  · rw [h] at he
    cases he

/-- Without an error every item was written. -/
theorem length_writeItems {items : List α} {written : List ExportRow}
    (h : (writeItems row items written).error = none) :
    (writeItems row items written).rows.length = written.length + items.length := by
  rcases writeItems_cases row items written with ⟨rs, -, hlength, hwritten⟩ | ⟨e, -, herror, -⟩
  · rw [hwritten, List.length_append, hlength]
  · rw [herror] at h
    cases h

/-- The loop of `StreamTransfers`, `StreamAccountLedger` and the mismatches of a run, from a cursor
on. It is left at the end of the listing, or with as many rows as the limit. -/
def streamPages (stalled : String) (pageSize limit : ℕ) (cursor : String)
    (written : List ExportRow) : Export ε :=
  if written.length < limit then
    match list cursor (min pageSize (limit - written.length)) with
    | .error e => { rows := written, error := some e }
    | .ok (items, next) =>
      let page := writeItems row items written
      if page.error.isSome ∨ next = "" ∨ items = [] then page
      else if next = cursor then { page with error := some (.unavailable stalled) }
      else streamPages stalled pageSize limit next page.rows
  else { rows := written, truncated := true }
termination_by limit - written.length
decreasing_by
  rename_i hlt hpage hadvanced
  rw [not_or, not_or] at hpage
  obtain ⟨hok, -, hne⟩ := hpage
  have hlength := length_writeItems row (Option.not_isSome_iff_eq_none.mp hok)
  have hpos := List.length_pos_iff.mpr hne
  omega

section Pages

variable {list row} {stalled : String} {pageSize limit : ℕ} {cursor : String}
  {written : List ExportRow} {rest : List α}

/-- With as many rows as the limit the loop is left at once. -/
theorem streamPages_full (h : limit ≤ written.length) :
    streamPages list row stalled pageSize limit cursor written =
      { rows := written, truncated := true } := by
  rw [streamPages, if_neg (Nat.not_lt.mpr h)]

/-- One round of the loop, over a page of the listing. -/
theorem streamPages_page {items : List α} {next : String} (h : written.length < limit)
    (hlist : list cursor (min pageSize (limit - written.length)) = .ok (items, next)) :
    streamPages list row stalled pageSize limit cursor written =
      if (writeItems row items written).error.isSome ∨ next = "" ∨ items = [] then
        writeItems row items written
      else if next = cursor then
        { writeItems row items written with error := some (.unavailable stalled) }
      else streamPages list row stalled pageSize limit next (writeItems row items written).rows := by
  rw [streamPages, if_pos h, hlist]

/-- **What a stream writes.** It writes as many of the records that are delivered as the limit
leaves room for, and says that it left some out when it did, or when it stops at the limit with a
further cursor; or it ends with the error of the first record that is refused. -/
theorem streamPages_spec (hsize : 0 < pageSize) (hrest : DeliversFrom "" list cursor rest)
    (hroom : written.length < limit ∨ (written.length = limit ∧ (rest ≠ [] ∨ cursor ≠ ""))) :
    (∃ rs, (rest.take (limit - written.length)).mapM row = .ok rs ∧
      streamPages list row stalled pageSize limit cursor written =
        { rows := written ++ rs
          truncated := limit < written.length + rest.length ∨
            (limit = written.length + rest.length ∧
              stopCursor "" list pageSize (limit - written.length) cursor ≠ "") }) ∨
    ∃ e, (rest.take (limit - written.length)).mapM row = .error e ∧
      (streamPages list row stalled pageSize limit cursor written).error = some e := by
  -- The induction is on the room left, which every page but the last makes smaller.
  induction hk : limit - written.length using Nat.strong_induction_on
    generalizing cursor written rest with
  | _ k ih =>
    subst hk
    rcases hroom with hlt | ⟨hfull, hmore⟩
    swap
    · -- Nothing is written any more, and something is left out or a cursor is left.
      refine .inl ⟨[], by rw [hfull, Nat.sub_self]; rfl, ?_⟩
      have hflag : limit < written.length + rest.length ∨ (limit = written.length + rest.length ∧
          stopCursor "" list pageSize (limit - written.length) cursor ≠ "") := by
        rcases rest with _ | ⟨x, rest⟩
        · refine .inr ⟨hfull.symm, ?_⟩
          rw [hfull, Nat.sub_self, stopCursor_zero]
          exact hmore.resolve_left fun h => h rfl
        · refine .inl ?_
          rw [List.length_cons]
          omega
      rw [streamPages_full hfull.ge, List.append_nil, decide_eq_true hflag]
    obtain ⟨items, next, behind, hlist, rfl, hlength, hempty, hlast, hmore⟩ :=
      hrest.page (show 0 < min pageSize (limit - written.length) by omega)
    rw [streamPages_page hlt hlist, stopCursor_page (by omega) hlist]
    have htake : (items ++ behind).take (limit - written.length) =
        items ++ behind.take (limit - written.length - items.length) := by
      rw [List.take_append, List.take_of_length_le (by omega)]
    rw [htake, List.mapM_append]
    -- The items of the page are written, or one of them cannot be.
    rcases writeItems_cases row items written with ⟨rs, hrs, hcount, hpage⟩ | ⟨e, he, herror, -⟩
    swap
    · refine .inr ⟨e, by rw [he]; rfl, ?_⟩
      rw [if_pos (.inl (by rw [herror]; rfl)), herror]
    rw [hpage, hrs]
    by_cases hend : items = [] ∨ next = ""
    · -- The last page: nothing is behind it.
      have hbehind : behind = [] := hend.elim hempty hlast
      refine .inl ⟨rs, ?_, ?_⟩
      · rw [hbehind, List.take_nil]
        simp [pure, Except.pure, bind, Except.bind]
      · have hflag : ¬(limit < written.length + (items ++ behind).length ∨
            (limit = written.length + (items ++ behind).length ∧ ("" : String) ≠ "")) := by
          rw [hbehind, List.append_nil]
          rintro (h | ⟨-, h⟩)
          · omega
          · exact h rfl
        rw [if_pos (.inr hend.symm), if_pos hend, decide_eq_false hflag]
    -- Items and a cursor: the next page starts behind them with less room.
    · obtain ⟨hitems, hne⟩ := not_or.mp hend
      obtain ⟨hadvanced, hnext⟩ := hmore hitems hne
      have hpos := List.length_pos_iff.mpr hitems
      have hrows : (written ++ rs).length = written.length + items.length := by
        rw [List.length_append, hcount]
      have hgo : ¬((({ rows := written ++ rs } : Export ε).error.isSome = true) ∨ next = "" ∨
          items = []) := by
        rintro (h | h | h)
        · cases h
        · exact hne h
        · exact hitems h
      rw [if_neg hgo, if_neg hadvanced, if_neg hend]
      have hleft : limit - (written ++ rs).length = limit - written.length - items.length := by
        omega
      have hroom : (written ++ rs).length < limit ∨
          ((written ++ rs).length = limit ∧ (behind ≠ [] ∨ next ≠ "")) := by
        rcases Nat.lt_or_ge (written ++ rs).length limit with h | h
        · exact .inl h
        · exact .inr ⟨by omega, .inr hne⟩
      rcases ih _ (by omega) hnext hroom rfl with ⟨more, hread, hstream⟩ | ⟨e, he, herror⟩
      · refine .inl ⟨rs ++ more, ?_, ?_⟩
        · rw [← hleft, hread]
          rfl
        · rw [hstream, List.append_assoc, hrows, List.length_append, Nat.add_assoc, Nat.sub_add_eq]
      · refine .inr ⟨e, ?_, herror⟩
        rw [← hleft, he]
        rfl

/-- No row that was written is lost. -/
theorem le_length_writeItems (items : List α) (written : List ExportRow) :
    written.length ≤ (writeItems row items written).rows.length := by
  induction items generalizing written with
  | nil => exact le_rfl
  | cons item items ih =>
    rw [writeItems]
    split
    · exact le_rfl
    · have hmore := ih (written ++ [‹ExportRow›])
      rw [List.length_append] at hmore
      omega

/-- A stream takes no row back. -/
theorem le_length_streamPages : written.length ≤
    (streamPages list row stalled pageSize limit cursor written).rows.length := by
  fun_induction streamPages list row stalled pageSize limit cursor written with
  | case1 => exact le_rfl
  | case2 => exact le_length_writeItems _ _
  | case3 => exact le_length_writeItems _ _
  | case4 _ _ _ _ _ _ _ _ _ ih => exact (le_length_writeItems _ _).trans ih
  | case5 => exact le_rfl

end Pages

end Streams

/-! ## Reconciliation -/

section Reconciliation

variable (mismatches : GoString → String → ℕ → Except (ExportError ε) (List ExportedMismatch × String))
  (listRuns : String → ℕ → Except (ExportError ε) (List ExportedRun × String))

/-- The loop of `StreamReconciliation` over the runs of a page. The flag says that the function has
returned. -/
def streamRuns (pageSize limit : ℕ) : List ExportedRun → List ExportRow → Export ε × Bool
  | [], written => ({ rows := written }, false)
  | run :: runs, written =>
    match reconciliationRunRow run with
    | .error e => ({ rows := written, error := some e }, true)
    | .ok r =>
      let inner := streamPages (mismatches run.id) (reconciliationMismatchRow run)
        "mismatch cursor did not advance" pageSize limit "" (written ++ [r])
      if inner.error.isSome then ({ inner with truncated := false }, true)
      else if limit ≤ inner.rows.length then ({ inner with truncated := true }, true)
      else streamRuns pageSize limit runs inner.rows

/-- While the limit is not reached every run was written. -/
theorem length_streamRuns {pageSize limit : ℕ} {runs : List ExportedRun} {written : List ExportRow}
    (h : (streamRuns mismatches pageSize limit runs written).2 = false) :
    written.length + runs.length ≤
      (streamRuns mismatches pageSize limit runs written).1.rows.length := by
  induction runs generalizing written with
  | nil => exact le_rfl
  | cons run runs ih =>
    rw [streamRuns] at h ⊢
    split at h
    · cases h
    · next r hr =>
      have hinner := @le_length_streamPages ε _ (mismatches run.id) (reconciliationMismatchRow run)
        "mismatch cursor did not advance" pageSize limit "" (written ++ [r])
      dsimp only at h ⊢
      split_ifs at h ⊢ with herror hfull
      have hmore := ih h
      rw [List.length_append, List.length_singleton] at hinner
      rw [List.length_cons]
      omega

/-- The loop of `StreamReconciliation` over the pages of runs. -/
def streamRunPages (pageSize limit : ℕ) (cursor : String) (written : List ExportRow) : Export ε :=
  if written.length < limit then
    match listRuns cursor (min pageSize (limit - written.length)) with
    | .error e => { rows := written, error := some e }
    | .ok (runs, next) =>
      let page := streamRuns mismatches pageSize limit runs written
      if page.2 = true ∨ next = "" ∨ runs = [] then page.1
      else if next = cursor then
        { page.1 with error := some (.unavailable "reconciliation cursor did not advance") }
      else streamRunPages pageSize limit next page.1.rows
  else { rows := written, truncated := true }
termination_by limit - written.length
decreasing_by
  rename_i hlt hpage hadvanced
  rw [not_or, not_or, Bool.not_eq_true] at hpage
  obtain ⟨hcontinued, -, hne⟩ := hpage
  have hlength := length_streamRuns mismatches hcontinued
  have hpos := List.length_pos_iff.mpr hne
  omega

/-- A record of the reconciliation export: a run, or one of its mismatches. -/
inductive ReconciliationRecord where
  | run (r : ExportedRun)
  | mismatch (r : ExportedRun) (m : ExportedMismatch)

/-- The row of a record. -/
def ReconciliationRecord.row : ReconciliationRecord → Except (ExportError ε) ExportRow
  | run r => reconciliationRunRow r
  | mismatch r m => reconciliationMismatchRow r m

/-- The records of a run whose mismatches are `found`. -/
def runRecords (found : ExportedRun → List ExportedMismatch) (r : ExportedRun) :
    List ReconciliationRecord :=
  .run r :: (found r).map (.mismatch r)

section Specification

variable {mismatches listRuns} {found : ExportedRun → List ExportedMismatch} {pageSize limit : ℕ}
  {written : List ExportRow} {runs : List ExportedRun} {cursor : String}

/-- What the export comes to after some runs: it goes on when room is left behind their records, and
returns when there is none or when a record is refused. -/
inductive RunsOutcome (limit : ℕ) (written : List ExportRow) (records : List ReconciliationRecord) :
    Export ε × Bool → Prop where
  | continued (rs : List ExportRow) : records.length < limit - written.length →
      records.mapM ReconciliationRecord.row = (.ok rs : Except (ExportError ε) _) →
      RunsOutcome limit written records ({ rows := written ++ rs }, false)
  | full (rs : List ExportRow) : limit - written.length ≤ records.length →
      (records.take (limit - written.length)).mapM ReconciliationRecord.row =
        (.ok rs : Except (ExportError ε) _) →
      RunsOutcome limit written records ({ rows := written ++ rs, truncated := true }, true)
  | refused (e : ExportError ε) (x : Export ε) :
      (records.take (limit - written.length)).mapM ReconciliationRecord.row = .error e →
      x.error = some e → RunsOutcome limit written records (x, true)

/-- More rows and records in front of an outcome. -/
theorem RunsOutcome.prepend {front records : List ReconciliationRecord} {rs : List ExportRow}
    {x : Export ε × Bool} (hlength : rs.length = front.length)
    (hroom : front.length < limit - written.length)
    (hfront : front.mapM ReconciliationRecord.row = (.ok rs : Except (ExportError ε) _))
    (h : RunsOutcome limit (written ++ rs) records x) :
    RunsOutcome limit written (front ++ records) x := by
  have hleft : limit - (written ++ rs).length = limit - written.length - front.length := by
    rw [List.length_append]
    -- The front fits whole, so that the room for the rest is what it leaves.
    omega
  have htake : (front ++ records).take (limit - written.length) =
      front ++ records.take (limit - (written ++ rs).length) := by
    rw [hleft, List.take_append, List.take_of_length_le hroom.le]
  -- Each outcome is that of the rest with the front put before it.
  cases h with
  | continued more hshort hmore =>
    rw [List.append_assoc]
    refine .continued _ (by rw [List.length_append]; omega) ?_
    rw [List.mapM_append, hfront, hmore]
    rfl
  | full more hlong hmore =>
    rw [List.append_assoc]
    refine .full _ (by rw [List.length_append]; omega) ?_
    rw [htake, List.mapM_append, hfront, hmore]
    rfl
  | refused e x hmore herror =>
    refine .refused e x ?_ herror
    rw [htake, List.mapM_append, hfront, hmore]
    rfl

/-- One run and its mismatches. -/
theorem streamRuns_spec (hsize : 0 < pageSize)
    (hfound : ∀ run ∈ runs, Delivers "" (mismatches run.id) (found run))
    (hroom : written.length < limit) :
    RunsOutcome limit written (runs.flatMap (runRecords found))
      (streamRuns mismatches pageSize limit runs written) := by
  -- The induction is on the runs; each writes its own row and then its mismatches.
  induction runs generalizing written with
  | nil =>
    have hnil : RunsOutcome limit written []
        (({ rows := written ++ [] } : Export ε), false) :=
      .continued [] (by simpa using hroom) rfl
    rwa [List.append_nil] at hnil
  | cons run runs ih =>
    obtain ⟨k, hk⟩ : ∃ k, limit - written.length = k + 1 := ⟨limit - written.length - 1, by omega⟩
    have hrun := hfound run List.mem_cons_self
    rw [streamRuns, List.flatMap_cons]
    -- The row of the run may itself be refused.
    rcases hrow : (reconciliationRunRow run : Except (ExportError ε) ExportRow) with e | r
    · refine .refused e _ ?_ rfl
      rw [hk, runRecords, List.cons_append, List.take_succ_cons, List.mapM_cons]
      show (reconciliationRunRow run >>= _) = _
      rw [hrow]
      rfl
    have hrow' : ReconciliationRecord.row (.run run) = (.ok r : Except (ExportError ε) _) := hrow
    have hlen : (written ++ [r]).length = written.length + 1 := List.length_append
    have hmap : ∀ l : List ExportedMismatch, (l.map (.mismatch run)).mapM ReconciliationRecord.row =
        (l.mapM (reconciliationMismatchRow run) : Except (ExportError ε) _) := fun l => List.mapM_map
    dsimp only
    rcases Nat.eq_zero_or_pos k with rfl | hpos
    · -- the row of the run is the last that there is room for
      rw [streamPages_full (by omega), if_neg (by simp), if_pos (by dsimp only; omega)]
      refine .full [r] (by rw [hk, runRecords, List.cons_append, List.length_cons]; omega) ?_
      rw [hk, runRecords, List.cons_append, List.take_succ_cons, List.take_zero, List.mapM_cons, hrow']
      rfl
    have hleft : limit - (written ++ [r]).length = k := by omega
    have hinner := @streamPages_spec ε _ _ (reconciliationMismatchRow run)
      "mismatch cursor did not advance" pageSize limit _ (written ++ [r]) _ hsize hrun
      (.inl (by omega))
    -- The mismatches of the run are written within what is left.
    rcases hinner with ⟨more, hread, hstream⟩ | ⟨e, he, herror⟩
    swap
    · rw [if_pos (by rw [herror]; rfl)]
      refine .refused e _ ?_ herror
      rw [hk, runRecords, List.cons_append, List.take_succ_cons, List.mapM_cons, hrow',
        List.take_append,
        List.mapM_append, ← List.map_take, hmap, ← hleft, he]
      rfl
    rw [hleft] at hread
    have hmore := length_of_mapM _ hread
    rw [List.length_take] at hmore
    rw [hstream, if_neg (by simp)]
    -- They fill the room, or the next run goes on.
    by_cases hfull : k ≤ (found run).length
    · rw [if_pos (by dsimp only; rw [List.length_append]; omega), List.append_assoc,
        List.singleton_append]
      refine .full (r :: more) ?_ ?_
      · rw [hk, List.length_append, runRecords, List.length_cons, List.length_map]
        omega
      · rw [hk, runRecords, List.cons_append, List.take_succ_cons, List.mapM_cons, hrow',
          List.take_append_of_le_length (by rwa [List.length_map]), ← List.map_take, hmap, hread]
        rfl
    · rw [List.take_of_length_le (Nat.le_of_not_le hfull)] at hread
      rw [if_neg (by dsimp only; rw [List.length_append]; omega)]
      have hrest := @ih (written ++ [r] ++ more)
        (fun other hother => hfound other (List.mem_cons_of_mem _ hother))
        (by rw [List.length_append]; omega)
      rw [List.append_assoc, List.singleton_append] at hrest ⊢
      refine RunsOutcome.prepend ?_ ?_ ?_ hrest
      · rw [runRecords, List.length_cons, List.length_cons, List.length_map]
        omega
      · rw [runRecords, List.length_cons, List.length_map]
        omega
      · rw [runRecords, List.mapM_cons, hrow', hmap, hread]
        rfl

/-- One round of the loop, over a page of runs. -/
theorem streamRunPages_page {items : List ExportedRun} {next : String} (h : written.length < limit)
    (hlist : listRuns cursor (min pageSize (limit - written.length)) = .ok (items, next)) :
    streamRunPages mismatches listRuns pageSize limit cursor written =
      if (streamRuns mismatches pageSize limit items written).2 = true ∨ next = "" ∨ items = [] then
        (streamRuns mismatches pageSize limit items written).1
      else if next = cursor then
        { (streamRuns mismatches pageSize limit items written).1 with
          error := some (.unavailable "reconciliation cursor did not advance") }
      else streamRunPages mismatches listRuns pageSize limit next
        (streamRuns mismatches pageSize limit items written).1.rows := by
  rw [streamRunPages, if_pos h, hlist]

/-- **What the reconciliation export writes.** It writes as many records as the limit leaves room
for, and says that it left some out as soon as no room is left. -/
theorem streamRunPages_spec (hsize : 0 < pageSize) (hruns : DeliversFrom "" listRuns cursor runs)
    (hfound : ∀ run ∈ runs, Delivers "" (mismatches run.id) (found run))
    (hroom : written.length < limit) :
    (∃ rs, ((runs.flatMap (runRecords found)).take (limit - written.length)).mapM
        ReconciliationRecord.row = (.ok rs : Except (ExportError ε) _) ∧
      streamRunPages mismatches listRuns pageSize limit cursor written =
        { rows := written ++ rs
          truncated := limit ≤ written.length + (runs.flatMap (runRecords found)).length }) ∨
    ∃ e, ((runs.flatMap (runRecords found)).take (limit - written.length)).mapM
        ReconciliationRecord.row = (.error e : Except (ExportError ε) _) ∧
      (streamRunPages mismatches listRuns pageSize limit cursor written).error = some e := by
  -- The induction is on the room left, as for a single stream.
  induction hk : limit - written.length using Nat.strong_induction_on
    generalizing cursor written runs with
  | _ k ih =>
    subst hk
    obtain ⟨items, next, behind, hlist, rfl, -, hempty, hlast, hmore⟩ :=
      hruns.page (show 0 < min pageSize (limit - written.length) by omega)
    have hpage := streamRuns_spec hsize
      (fun run hrun => hfound run (List.mem_append_left _ hrun)) hroom
    rw [streamRunPages_page hroom hlist, List.flatMap_append]
    generalize items.flatMap (runRecords found) = front at hpage ⊢
    generalize hx : streamRuns mismatches pageSize limit items written = x at hpage ⊢
    have hcontinued := @length_streamRuns ε mismatches pageSize limit items written
    rw [hx] at hcontinued
    -- The page has filled the room, failed, or left room behind it.
    cases hpage with
    | full rs hlong hread =>
      refine .inl ⟨rs, ?_, ?_⟩
      · rw [List.take_append_of_le_length hlong, hread]
      · rw [if_pos (.inl rfl), List.length_append, decide_eq_true (by omega)]
    | refused e x hread herror =>
      refine .inr ⟨e, ?_, ?_⟩
      · rw [List.take_append, List.mapM_append, hread]
        rfl
      · rw [if_pos (.inl rfl), herror]
    | continued rs hshort hread =>
      have hcount := length_of_mapM _ hread
      have htake : (front ++ behind.flatMap (runRecords found)).take (limit - written.length) =
          front ++ (behind.flatMap (runRecords found)).take (limit - (written ++ rs).length) := by
        rw [List.take_append, List.take_of_length_le hshort.le, List.length_append, hcount,
          Nat.sub_sub]
      rw [htake, List.mapM_append, hread]
      -- The last page ends the stream, any other goes on behind its cursor.
      by_cases hend : next = "" ∨ items = []
      · have hbehind : behind = [] := hend.elim hlast hempty
        refine .inl ⟨rs, ?_, ?_⟩
        · rw [hbehind, List.flatMap_nil, List.take_nil]
          simp [pure, Except.pure, bind, Except.bind]
        · rw [if_pos (.inr hend), hbehind, List.flatMap_nil, List.append_nil,
            decide_eq_false (by omega)]
      · obtain ⟨hne, hitems⟩ := not_or.mp hend
        obtain ⟨hadvanced, hnext⟩ := hmore hitems hne
        have hpos := List.length_pos_iff.mpr hitems
        have hgrown := hcontinued rfl
        dsimp only at hgrown
        rw [List.length_append] at hgrown
        have hgo : ¬((({ rows := written ++ rs } : Export ε), false).2 = true ∨ next = "" ∨
            items = []) := by
          rintro (h | h | h)
          · cases h
          · exact hne h
          · exact hitems h
        rw [if_neg hgo, if_neg hadvanced]
        have hlength : (written ++ rs).length = written.length + front.length := by
          rw [List.length_append, hcount]
        have hless : limit - (written ++ rs).length < limit - written.length := by omega
        have hrest := ih _ hless hnext
          (fun run hrun => hfound run (List.mem_append_right _ hrun)) (by omega) rfl
        rcases hrest with ⟨more, hmoreRead, hstream⟩ | ⟨e, he, herror⟩
        · refine .inl ⟨rs ++ more, ?_, ?_⟩
          · rw [hmoreRead]
            rfl
          · rw [hstream, List.append_assoc, hlength, List.length_append, Nat.add_assoc]
        · refine .inr ⟨e, ?_, herror⟩
          rw [he]
          rfl

end Specification

end Reconciliation

/-! ## Exports -/

namespace ExportService

variable (s : ExportService ε) (tenantId actorId : String)

/-- `StreamTransfers`. -/
def streamTransfers (filter : ExportTransferFilter) (requestedRows : ℤ) : Export ε :=
  match s.validate tenantId requestedRows with
  | .error e => { rows := [], error := some e }
  | .ok limit =>
    if trimSpace actorId = "" then { rows := [], error := some .invalidRequest }
    else streamPages
      (fun cursor n => (s.repository.listTransfers tenantId actorId
        { filter with cursor := cursor, limit := n }).mapError fun _ => .unavailable "list transfers")
      transferRow "transfer cursor did not advance" s.pageSize limit "" []

/-- `StreamAccountLedger`. -/
def streamAccountLedger (accountId : String) (requestedRows : ℤ) : Export ε :=
  match s.validate tenantId requestedRows with
  | .error _ => { rows := [], error := some .invalidRequest }
  | .ok limit =>
    if trimSpace actorId = "" ∨ trimSpace accountId = "" then
      { rows := [], error := some .invalidRequest }
    else streamPages
      (fun cursor n => (s.repository.listAccountHistory tenantId actorId accountId cursor n).mapError
        .repository)
      accountLedgerRow "account cursor did not advance" s.pageSize limit "" []

/-- `StreamReconciliation`. -/
def streamReconciliation (filter : ReconciliationFilter) (requestedRows : ℤ) : Export ε :=
  match s.validate tenantId requestedRows with
  | .error e => { rows := [], error := some e }
  | .ok limit =>
    if trimSpace actorId = "" then { rows := [], error := some .invalidRequest }
    else streamRunPages
      (fun run cursor n =>
        (s.repository.listReconciliationMismatches tenantId actorId run cursor n).mapError
          fun _ => .unavailable "list reconciliation mismatches")
      (fun cursor n => (s.repository.listReconciliationRuns tenantId actorId
        { filter with cursor := cursor, limit := n }).mapError
          fun _ => .unavailable "list reconciliation runs")
      s.pageSize limit "" []

end ExportService

/-! ## Honesty -/

section Honesty

variable {α : Type} {row : α → Except (ExportError ε) ExportRow} {records : List α} {limit : ℕ}
  {x : Export ε}

/-- An export of `records` that ends without an error has written the rows of the first of them, as
many as the limit allows, and says that it left some out exactly when it did; and it ends with an
error exactly when one of those is refused. -/
structure Export.Honest (row : α → Except (ExportError ε) ExportRow) (records : List α) (limit : ℕ)
    (x : Export ε) : Prop where
  written : x.error = none → (records.take limit).mapM row = .ok x.rows
  flagged : x.error = none → (x.truncated = true ↔ limit < records.length)
  completed : x.error = none ↔ ∃ rs, (records.take limit).mapM row = .ok rs

/-- The records are as many as the rows that may be written, and none of them is refused. -/
def Fills (ε : Type) (row : α → Except (ExportError ε) ExportRow) (records : List α) (limit : ℕ) :
    Prop :=
  records.length = limit ∧ ∃ rs, records.mapM row = .ok rs

/-- An export that raises its flag under some condition is honest when this is that of a record left
out, unless a record is refused. -/
theorem Export.honest_iff_of_outcome {flag : Prop} [Decidable flag]
    (h : (∃ rs, (records.take limit).mapM row = .ok rs ∧ x = { rows := rs, truncated := flag }) ∨
      ∃ e, (records.take limit).mapM row = .error e ∧ x.error = some e) :
    x.Honest row records limit ↔
      ((∃ rs, (records.take limit).mapM row = .ok rs) → (flag ↔ limit < records.length)) := by
  rcases h with ⟨rs, hread, rfl⟩ | ⟨e, hread, herror⟩
  · constructor
    · intro hhonest _
      rw [← hhonest.flagged rfl, decide_eq_true_iff]
    · intro hflag
      exact ⟨fun _ => hread, fun _ => decide_eq_true_iff.trans (hflag ⟨rs, hread⟩),
        iff_of_true rfl ⟨rs, hread⟩⟩
  · have hrefused : ¬∃ rs, (records.take limit).mapM row = .ok rs := by
      rintro ⟨rs, hrs⟩
      cases hread.symm.trans hrs
    have hfailed : x.error ≠ none := by
      rw [herror]
      exact Option.some_ne_none e
    exact iff_of_true ⟨fun h => absurd h hfailed, fun h => absurd h hfailed,
      iff_of_false hfailed hrefused⟩ fun h => absurd h hrefused

/-- An export that also raises its flag when the records end at the limit and something else holds
is honest unless both do. -/
theorem Export.honest_iff_of_boundary {stop : Prop} [Decidable stop]
    (h : (∃ rs, (records.take limit).mapM row = .ok rs ∧
        x = { rows := rs
              truncated := limit < records.length ∨ (limit = records.length ∧ stop) }) ∨
      ∃ e, (records.take limit).mapM row = .error e ∧ x.error = some e) :
    x.Honest row records limit ↔ ¬(Fills ε row records limit ∧ stop) := by
  rw [Export.honest_iff_of_outcome h]
  constructor
  · rintro hflag ⟨⟨hlength, rs, hread⟩, hstop⟩
    rw [← List.take_of_length_le hlength.le] at hread
    have hmore := (hflag ⟨rs, hread⟩).mp (.inr ⟨hlength.symm, hstop⟩)
    omega
  · rintro hnot ⟨rs, hread⟩
    refine ⟨fun hflag => hflag.resolve_right ?_, .inl⟩
    rintro ⟨hlength, hstop⟩
    rw [List.take_of_length_le hlength.ge] at hread
    exact hnot ⟨⟨hlength.symm, rs, hread⟩, hstop⟩

end Honesty

namespace ExportService

variable {s : ExportService ε} {tenantId actorId accountId : String} {requestedRows : ℤ} {limit : ℕ}

/-- A limit of rows that is accepted leaves room for a row. -/
theorem validate_pos (h : s.validate tenantId requestedRows = .ok limit) : 0 < limit := by
  unfold validate at h
  dsimp only at h
  split_ifs at h
  all_goals
    obtain rfl := Except.ok.inj h
    omega

/-- The pages of `ListTransfers`, as the export asks for them. -/
def transferPages (s : ExportService ε) (tenantId actorId : String) (filter : ExportTransferFilter)
    (cursor : String) (n : ℕ) : Except ε (List ExportedTransfer × String) :=
  s.repository.listTransfers tenantId actorId { filter with cursor := cursor, limit := n }

/-- The pages of `ListReconciliationRuns`, as the export asks for them. -/
def runPages (s : ExportService ε) (tenantId actorId : String) (filter : ReconciliationFilter)
    (cursor : String) (n : ℕ) : Except ε (List ExportedRun × String) :=
  s.repository.listReconciliationRuns tenantId actorId { filter with cursor := cursor, limit := n }

/-- The export of transfers is honest unless they end with the last row that may be written and with
a further cursor. -/
theorem streamTransfers_honest_iff {filter : ExportTransferFilter}
    {transfers : List ExportedTransfer} (hlimit : s.validate tenantId requestedRows = .ok limit)
    (hactor : trimSpace actorId ≠ "")
    (h : Delivers "" (s.transferPages tenantId actorId filter) transfers) :
    (s.streamTransfers tenantId actorId filter requestedRows).Honest transferRow transfers limit ↔
      ¬(Fills ε transferRow transfers limit ∧
        stopCursor "" (s.transferPages tenantId actorId filter) s.pageSize limit "" ≠ "") := by
  have hpos := validate_pos hlimit
  have hstream := @streamPages_spec ε _ _ transferRow "transfer cursor did not advance" s.pageSize
    limit _ [] _ s.pageSize_bounds.1 (h.mapError fun _ => .unavailable "list transfers") (.inl hpos)
  rw [streamTransfers, hlimit]
  dsimp only
  rw [if_neg hactor]
  refine Export.honest_iff_of_boundary (hstream.imp_left ?_)
  rintro ⟨rs, hread, hstream⟩
  refine ⟨rs, hread, hstream.trans ?_⟩
  simp only [List.nil_append, List.length_nil, Nat.zero_add, Nat.sub_zero, stopCursor_mapError]

/-- The export of an account's ledger is honest unless its entries end with the last row that may be
written and with a further cursor. -/
theorem streamAccountLedger_honest_iff {entries : List ExportedEntry}
    (hlimit : s.validate tenantId requestedRows = .ok limit) (hactor : trimSpace actorId ≠ "")
    (haccount : trimSpace accountId ≠ "")
    (h : Delivers "" (s.repository.listAccountHistory tenantId actorId accountId) entries) :
    (s.streamAccountLedger tenantId actorId accountId requestedRows).Honest accountLedgerRow entries
        limit ↔
      ¬(Fills ε accountLedgerRow entries limit ∧
        stopCursor "" (s.repository.listAccountHistory tenantId actorId accountId) s.pageSize limit
          "" ≠ "") := by
  have hpos := validate_pos hlimit
  have hstream := @streamPages_spec ε _ _ accountLedgerRow "account cursor did not advance" s.pageSize
    limit _ [] _ s.pageSize_bounds.1 (h.mapError .repository) (.inl hpos)
  rw [streamAccountLedger, hlimit]
  dsimp only
  rw [if_neg (not_or.mpr ⟨hactor, haccount⟩)]
  refine Export.honest_iff_of_boundary (hstream.imp_left ?_)
  rintro ⟨rs, hread, hstream⟩
  refine ⟨rs, hread, hstream.trans ?_⟩
  simp only [List.nil_append, List.length_nil, Nat.zero_add, Nat.sub_zero, stopCursor_mapError]

/-- The export of an account's ledger is honest over a history that announces its end. -/
theorem streamAccountLedger_honest {entries : List ExportedEntry}
    (hlimit : s.validate tenantId requestedRows = .ok limit) (hactor : trimSpace actorId ≠ "")
    (haccount : trimSpace accountId ≠ "")
    (h : Announces "" (s.repository.listAccountHistory tenantId actorId accountId) entries) :
    (s.streamAccountLedger tenantId actorId accountId requestedRows).Honest accountLedgerRow entries
      limit := by
  rw [streamAccountLedger_honest_iff hlimit hactor haccount h.delivers]
  rintro ⟨⟨hlength, -⟩, hstop⟩
  exact hstop (h.stopCursor s.pageSize_bounds.1 (validate_pos hlimit) hlength.le)

/-- The export of the reconciliation runs is honest unless its last record is the last row that it
may write. -/
theorem streamReconciliation_honest_iff {filter : ReconciliationFilter} {runs : List ExportedRun}
    {found : ExportedRun → List ExportedMismatch}
    (hlimit : s.validate tenantId requestedRows = .ok limit) (hactor : trimSpace actorId ≠ "")
    (hruns : Delivers "" (s.runPages tenantId actorId filter) runs)
    (hfound : ∀ run ∈ runs,
      Delivers "" (s.repository.listReconciliationMismatches tenantId actorId run.id) (found run)) :
    (s.streamReconciliation tenantId actorId filter requestedRows).Honest ReconciliationRecord.row
        (runs.flatMap (runRecords found)) limit ↔
      ¬Fills ε ReconciliationRecord.row (runs.flatMap (runRecords found)) limit := by
  have hstream := @streamRunPages_spec ε
    (fun run cursor n => (s.repository.listReconciliationMismatches tenantId actorId run cursor
      n).mapError fun _ => .unavailable "list reconciliation mismatches") _ found s.pageSize limit [] _
    _ s.pageSize_bounds.1 (hruns.mapError fun _ => .unavailable "list reconciliation runs")
    (fun run hrun => DeliversFrom.mapError (hfound run hrun)
      fun _ => ExportError.unavailable "list reconciliation mismatches")
    (validate_pos hlimit)
  rw [streamReconciliation, hlimit]
  dsimp only
  rw [if_neg hactor]
  -- The flag is raised whenever the limit is reached, so also when the records end there.
  have hboundary := @Export.honest_iff_of_boundary ε _ ReconciliationRecord.row
    (runs.flatMap (runRecords found)) limit _ True _ (hstream.imp_left ?_)
  · exact hboundary.trans (by rw [and_true])
  rintro ⟨rs, hread, hstream⟩
  refine ⟨rs, hread, hstream.trans ?_⟩
  have hflag : limit ≤ (runs.flatMap (runRecords found)).length ↔
      limit < (runs.flatMap (runRecords found)).length ∨
        (limit = (runs.flatMap (runRecords found)).length ∧ True) := by
    rw [and_true]
    exact Nat.le_iff_lt_or_eq
  simp only [List.nil_append, List.length_nil, Nat.zero_add, decide_eq_decide.mpr hflag]

end ExportService

/-- **The exports are honest** unless their records end with the last row that may be written: that
of the reconciliation then says that it left records out, and those of the transfers and of an
account's ledger say so when the repository hands out a further cursor with the last record. -/
theorem exports_honest_iff (s : ExportService ε) {tenantId actorId accountId : String}
    {requestedRows : ℤ} {limit : ℕ} (transferFilter : ExportTransferFilter)
    (runFilter : ReconciliationFilter) {transfers : List ExportedTransfer}
    {entries : List ExportedEntry} {runs : List ExportedRun}
    {found : ExportedRun → List ExportedMismatch}
    (hlimit : s.validate tenantId requestedRows = .ok limit) (hactor : trimSpace actorId ≠ "")
    (haccount : trimSpace accountId ≠ "")
    (htransfers : Delivers "" (s.transferPages tenantId actorId transferFilter) transfers)
    (hentries : Delivers "" (s.repository.listAccountHistory tenantId actorId accountId) entries)
    (hruns : Delivers "" (s.runPages tenantId actorId runFilter) runs)
    (hfound : ∀ run ∈ runs,
      Delivers "" (s.repository.listReconciliationMismatches tenantId actorId run.id) (found run)) :
    ((s.streamTransfers tenantId actorId transferFilter requestedRows).Honest transferRow transfers
        limit ∧
      (s.streamAccountLedger tenantId actorId accountId requestedRows).Honest accountLedgerRow entries
        limit ∧
      (s.streamReconciliation tenantId actorId runFilter requestedRows).Honest
        ReconciliationRecord.row (runs.flatMap (runRecords found)) limit) ↔
      ¬(Fills ε transferRow transfers limit ∧
        stopCursor "" (s.transferPages tenantId actorId transferFilter) s.pageSize limit "" ≠ "") ∧
      ¬(Fills ε accountLedgerRow entries limit ∧
        stopCursor "" (s.repository.listAccountHistory tenantId actorId accountId) s.pageSize limit
          "" ≠ "") ∧
      ¬Fills ε ReconciliationRecord.row (runs.flatMap (runRecords found)) limit := by
  rw [ExportService.streamTransfers_honest_iff hlimit hactor htransfers,
    ExportService.streamAccountLedger_honest_iff hlimit hactor haccount hentries,
    ExportService.streamReconciliation_honest_iff hlimit hactor hruns hfound]

namespace Sample

/-- A listing of one page, which announces its end. -/
def onePage {α : Type} (items : List α) (_ : String) (_ : ℕ) : Except Unit (List α × String) :=
  .ok (items, "")

/-- A listing of two records in two pages, which announces its end. -/
def twoPages {α : Type} (first second : α) (cursor : String) (_ : ℕ) :
    Except Unit (List α × String) :=
  if cursor = "" then .ok ([first], "1") else .ok ([second], "")

/-- A listing of one record, which comes with a further cursor, and of an empty page behind it. -/
def openPages {α : Type} (item : α) (cursor : String) (_ : ℕ) : Except Unit (List α × String) :=
  if cursor = "" then .ok ([item], "1") else .ok ([], "")

/-- One page delivers its records. -/
theorem delivers_onePage {α : Type} {items : List α} (h : items.length ≤ 1) :
    Delivers "" (onePage items) items := by
  refine ⟨fun c rest => c = "" ∧ rest = items, ⟨rfl, rfl⟩, ?_⟩
  rintro c rest n ⟨rfl, rfl⟩ hn
  exact ⟨rest, "", [], rfl, (List.append_nil rest).symm, by omega, fun _ => rfl, fun _ => rfl,
    fun _ hne => absurd rfl hne⟩

/-- Two pages deliver both records. -/
theorem delivers_twoPages {α : Type} (first second : α) :
    Delivers "" (twoPages first second) [first, second] := by
  refine ⟨fun c rest => (c = "" ∧ rest = [first, second]) ∨ (c = "1" ∧ rest = [second]),
    .inl ⟨rfl, rfl⟩, ?_⟩
  rintro c rest n (⟨rfl, rfl⟩ | ⟨rfl, rfl⟩) hn
  · exact ⟨[first], "1", [second], rfl, rfl, hn, nofun, fun h => absurd h (by decide),
      fun _ _ => ⟨by decide, .inr ⟨rfl, rfl⟩⟩⟩
  · exact ⟨[second], "", [], rfl, rfl, hn, fun _ => rfl, fun _ => rfl, fun _ h => absurd rfl h⟩

/-- The empty page delivers nothing more. -/
theorem delivers_openPages {α : Type} (item : α) : Delivers "" (openPages item) [item] := by
  refine ⟨fun c rest => (c = "" ∧ rest = [item]) ∨ (c = "1" ∧ rest = []), .inl ⟨rfl, rfl⟩, ?_⟩
  rintro c rest n (⟨rfl, rfl⟩ | ⟨rfl, rfl⟩) hn
  · exact ⟨[item], "1", [], rfl, rfl, hn, nofun, fun h => absurd h (by decide),
      fun _ _ => ⟨by decide, .inr ⟨rfl, rfl⟩⟩⟩
  · exact ⟨[], "", [], rfl, rfl, hn.le, fun _ => rfl, fun _ => rfl, fun _ h => absurd rfl h⟩

/-- A transfer with some identifier. -/
def exportedTransfer (id : Char) : ExportedTransfer where
  id := [.char id]
  debitAccountId := []
  creditAccountId := []
  amountMinor := [.char '7']
  currency := goString "INR"
  financialStatus := []
  deliveryStatus := []
  createdAt := ⟨1, by decide⟩
  completedAt := ⟨2, by decide⟩
  journalTransactionId := []
  rejectionCode := []
  correctionId := []
  correctionStatus := []
  correctionRole := []
  originalTransferId := []
  compensationTransferId := []
  originalJournalId := []
  compensationJournalId := []

/-- The entry of a transfer. -/
def exportedEntry : ExportedEntry where
  transferId := [.char 't']
  direction := []
  amount := [.char '7']
  currency := goString "INR"
  status := []
  occurredAt := ⟨1, by decide⟩
  correctionId := []
  correctionStatus := []
  correctionRole := []
  originalTransferId := []
  compensationTransferId := []

/-- A run of the reconciliation with some identifier. -/
def exportedRun (id : Char) : ExportedRun where
  id := [.char id]
  status := []
  correlationId := []
  scope := []
  ledgerWatermark := []
  applicationVersion := []
  schemaVersion := []
  checkedAccountCount := [.char '2']
  postingCount := [.char '4']
  mismatchCount := [.char '0']
  startedAt := ⟨1, by decide⟩
  completedAt := ⟨2, by decide⟩

/-- A mismatch. -/
def exportedMismatch : ExportedMismatch where
  id := [.char 'm']
  accountId := []
  classification := []
  currency := goString "INR"
  expectedMinor := [.char '7']
  observedMinor := [.char '8']
  observedAvailableMinor := []
  balanceVersion := [.char '1']
  createdAt := ⟨1, by decide⟩

/-- A repository of two transfers and of two runs in two pages each, of an entry and of a mismatch
of each run, which come with a further cursor. -/
def exportRepository : ExportRepository Unit where
  listTransfers _ _ filter :=
    twoPages (exportedTransfer 't') (exportedTransfer 'u') filter.cursor filter.limit
  listAccountHistory _ _ _ := openPages exportedEntry
  listReconciliationRuns _ _ filter :=
    twoPages (exportedRun 'r') (exportedRun 's') filter.cursor filter.limit
  listReconciliationMismatches _ _ _ := openPages exportedMismatch

/-- A repository of one run without mismatches. -/
def runRepository : ExportRepository Unit where
  listTransfers _ _ filter := onePage [] filter.cursor filter.limit
  listAccountHistory _ _ _ := onePage []
  listReconciliationRuns _ _ filter := onePage [exportedRun 'r'] filter.cursor filter.limit
  listReconciliationMismatches _ _ _ := onePage []

/-- The default size of a page is in its bounds. -/
theorem defaultPageSize_bounds : 1 ≤ 250 ∧ 250 ≤ 1000 := by decide

/-- The default limit of an export is in its bounds. -/
theorem defaultMaxRows_bounds : 1 ≤ 10000 ∧ 10000 ≤ 100000 := by decide

/-- The service over a repository. -/
def exportService (repository : ExportRepository Unit) : ExportService Unit where
  repository := repository
  pageSize := 250
  maxRows := 10000
  pageSize_bounds := defaultPageSize_bounds
  maxRows_bounds := defaultMaxRows_bounds

/-- A filter of transfers. -/
def transferFilter : ExportTransferFilter := ⟨"", "", "", "", (⟨0, by decide⟩, ⟨0, by decide⟩), 0⟩

/-- A filter of runs. -/
def runFilter : ReconciliationFilter := ⟨"", "", "", (⟨0, by decide⟩, ⟨0, by decide⟩), 0⟩

/-- A limit that is not above that of the service is taken. -/
theorem exportService_validate (repository : ExportRepository Unit) (limit : ℕ)
    (h : 0 < limit ∧ limit ≤ 10000) :
    (exportService repository).validate "t" limit = .ok limit := by
  have htenant : trimSpace "t" ≠ "" := by decide +kernel
  have hnonzero : ¬(limit : ℤ) = 0 := by omega
  have hmax : ¬((limit : ℤ) < 1 ∨ ((exportService repository).maxRows : ℤ) < limit) := by
    show ¬((limit : ℤ) < 1 ∨ ((10000 : ℕ) : ℤ) < limit)
    omega
  unfold ExportService.validate
  simp only [if_neg htenant, if_neg hnonzero, if_neg hmax, Int.toNat_natCast]

/-- The records of the two runs. -/
def runRecordsFound : List ReconciliationRecord :=
  [exportedRun 'r', exportedRun 's'].flatMap (runRecords fun _ => [exportedMismatch])

end Sample

/-- With room for two rows all three exports are honest: two transfers in two pages are just all of
them, one entry with an empty page behind it is all of them too, and two of the four records of the
runs are left out. -/
theorem exports_honest_sample :
    (((Sample.exportService Sample.exportRepository).streamTransfers "t" "a" Sample.transferFilter
        2).Honest transferRow [Sample.exportedTransfer 't', Sample.exportedTransfer 'u'] 2 ∧
      ((Sample.exportService Sample.exportRepository).streamAccountLedger "t" "a" "b" 2).Honest
        accountLedgerRow [Sample.exportedEntry] 2 ∧
      ((Sample.exportService Sample.exportRepository).streamReconciliation "t" "a" Sample.runFilter
        2).Honest ReconciliationRecord.row Sample.runRecordsFound 2) ∧
      Sample.runRecordsFound.length = 4 := by
  refine ⟨(exports_honest_iff (Sample.exportService Sample.exportRepository) Sample.transferFilter
    Sample.runFilter (Sample.exportService_validate _ 2 (by decide))
    (show trimSpace "a" ≠ "" by decide +kernel) (show trimSpace "b" ≠ "" by decide +kernel)
    (Sample.delivers_twoPages _ _) (Sample.delivers_openPages _) (Sample.delivers_twoPages _ _)
    fun _ _ => Sample.delivers_openPages _).mpr ⟨?_, ?_, ?_⟩, rfl⟩
  · -- The second page of transfers announces the end.
    rintro ⟨-, hstop⟩
    refine hstop ?_
    rw [stopCursor_page (by decide) rfl, if_neg (by decide), stopCursor_page (by decide) rfl,
      if_pos (.inr rfl)]
  · rintro ⟨⟨hlength, -⟩, -⟩
    cases hlength
  · rintro ⟨hlength, -⟩
    cases hlength

/-- With room for one row the export of one run without a mismatch says that it left something out.
-/
theorem reconciliation_export_not_honest :
    Delivers "" ((Sample.exportService Sample.runRepository).runPages "t" "a" Sample.runFilter)
      [Sample.exportedRun 'r'] ∧
    (∀ run, Delivers "" (Sample.runRepository.listReconciliationMismatches "t" "a" run) []) ∧
    ¬((Sample.exportService Sample.runRepository).streamReconciliation "t" "a" Sample.runFilter
      1).Honest ReconciliationRecord.row
        ([Sample.exportedRun 'r'].flatMap (runRecords fun _ => [])) 1 := by
  have hruns : Delivers "" ((Sample.exportService Sample.runRepository).runPages "t" "a"
      Sample.runFilter) [Sample.exportedRun 'r'] := Sample.delivers_onePage le_rfl
  have hmismatches : ∀ run, Delivers "" (Sample.runRepository.listReconciliationMismatches "t" "a"
      run) [] := fun _ => Sample.delivers_onePage (Nat.zero_le 1)
  have hactor : trimSpace "a" ≠ "" := by decide +kernel
  refine ⟨hruns, hmismatches, fun hhonest => ?_⟩
  refine (ExportService.streamReconciliation_honest_iff
    (Sample.exportService_validate _ 1 (by decide)) hactor hruns fun run _ =>
      hmismatches run.id).mp hhonest ⟨rfl, ?_⟩
  rw [List.flatMap_singleton, runRecords, List.map_nil, List.mapM_cons, ReconciliationRecord.row,
    reconciliationRunRow, if_neg (by decide)]
  exact ⟨_, rfl⟩

end LedgerSync
