import LedgerSync.Exports
import LedgerSync.Lib.Csv

/-!
# The bytes of exported rows

`quotedCSVWriter.Row` of the exports and the `row` closure of the reservations export both put every
field in quotes and write its quotes twice; the first ends a row with CRLF, the second with LF. A
reader of comma separated values gives back every list of rows that have a field
(`export_rows_read_back`). A row without fields is written as an empty line, which is a record with
one empty field. The exports write no such row: each has a field for every column of the header
(`exports_fillColumns`), so their files are read back (`exports_read_back`).
-/

namespace LedgerSync

open Lib

/-- `strings.ReplaceAll(s, old, new)` where `old` is one byte. -/
def replaceAll (s : Bytes) (old : UInt8) (new : Bytes) : Bytes :=
  s.flatMap fun b => if b = old then new else [b]

/-! ## `quotedCSVWriter` -/

/-- `quotedCSVWriter`: the bytes that its destination has taken, and what the destination answers to
the next ones. -/
structure QuotedCsvWriter (ε : Type) where
  written : Bytes
  refuses : Bytes → Bytes → Option ε

namespace QuotedCsvWriter

variable {ε : Type}

/-- `io.WriteString(w.destination, s)`. -/
def writeString (w : QuotedCsvWriter ε) (s : Bytes) : Except ε (QuotedCsvWriter ε) :=
  match w.refuses w.written s with
  | some e => .error e
  | none => .ok { w with written := w.written ++ s }

/-- One turn of the loop of `Row`. -/
def writeField (w : QuotedCsvWriter ε) (field : Bytes × ℕ) : Except ε (QuotedCsvWriter ε) := do
  let w ← if 0 < field.2 then w.writeString [csvComma] else pure w
  w.writeString ([csvQuote] ++ replaceAll field.1 csvQuote [csvQuote, csvQuote] ++ [csvQuote])

/-- `Row`. -/
def row (w : QuotedCsvWriter ε) (fields : List Bytes) : Except ε (QuotedCsvWriter ε) := do
  let w ← fields.zipIdx.foldlM writeField w
  w.writeString [csvReturn, csvNewline]

/-- What a successful write has added. -/
theorem written_of_writeString {w w' : QuotedCsvWriter ε} {s : Bytes}
    (h : w.writeString s = .ok w') : w'.written = w.written ++ s := by
  unfold writeString at h
  split at h
  · cases h
  · rw [← Except.ok.inj h]

/-- What a field adds: a comma in front of every one but the first, and the field in quotes. -/
theorem written_of_writeField {w w' : QuotedCsvWriter ε} {field : Bytes} {index : ℕ}
    (h : w.writeField (field, index) = .ok w') :
    w'.written = w.written ++ ((if 0 < index then [csvComma] else []) ++ enclose field) := by
  unfold writeField at h
  by_cases hindex : 0 < index
  · simp only [if_pos hindex] at h ⊢
    rcases hcomma : w.writeString [csvComma] with e | v
    · rw [hcomma] at h
      cases h
    · rw [hcomma] at h
      have hfield := written_of_writeString h
      rw [hfield, written_of_writeString hcomma, List.append_assoc]
      rfl
  · simp only [if_neg hindex] at h ⊢
    exact written_of_writeString h

/-- What the fields from an index on add. -/
theorem written_of_fields {fields : List Bytes} {index : ℕ} {w w' : QuotedCsvWriter ε}
    (h : (fields.zipIdx index).foldlM writeField w = .ok w') :
    w'.written = w.written ++
      (if 0 < index ∧ fields ≠ [] then [csvComma] else []) ++ encloseAll fields := by
  induction fields generalizing index w with
  | nil =>
    have hsame : w = w' := Except.ok.inj h
    rw [hsame]
    simp [encloseAll]
  | cons field fields ih =>
    rw [List.zipIdx_cons, List.foldlM_cons] at h
    rcases hfirst : w.writeField (field, index) with e | v
    · rw [hfirst] at h
      cases h
    · rw [hfirst] at h
      have hrest := ih h
      rw [hrest, written_of_writeField hfirst]
      rcases fields with _ | ⟨second, fields⟩
      · simp [encloseAll]
      · simp [encloseAll, List.intercalate_cons_cons]

/-- A row adds its fields in quotes and CRLF. -/
theorem written_of_row {w w' : QuotedCsvWriter ε} {fields : List Bytes}
    (h : w.row fields = .ok w') :
    w'.written = w.written ++ (encloseAll fields ++ [csvReturn, csvNewline]) := by
  unfold row at h
  rcases hfields : fields.zipIdx.foldlM writeField w with e | v
  · rw [hfields] at h
    cases h
  · rw [hfields] at h
    have hend := written_of_writeString h
    have hall := written_of_fields hfields
    rw [hend, hall]
    simp

/-- A list of rows adds the lines of its rows. -/
theorem written_of_rows {rows : List (List Bytes)} {w w' : QuotedCsvWriter ε}
    (h : rows.foldlM row w = .ok w') :
    w'.written = w.written ++
      rows.flatMap fun fields => encloseAll fields ++ [csvReturn, csvNewline] := by
  induction rows generalizing w with
  | nil =>
    have hsame : w = w' := Except.ok.inj h
    rw [hsame]
    simp
  | cons fields rows ih =>
    rw [List.foldlM_cons] at h
    rcases hfirst : w.row fields with e | v
    · rw [hfirst] at h
      cases h
    · rw [hfirst] at h
      have hrest := ih h
      rw [hrest, written_of_row hfirst, List.append_assoc, List.flatMap_cons]

end QuotedCsvWriter

/-! ## `row` of the reservations export -/

/-- One turn of the loop of `row`. -/
def reservationCellBytes (buffer : Bytes) (cell : Bytes × ℕ) : Bytes :=
  let buffer := if 0 < cell.2 then buffer ++ [csvComma] else buffer
  let buffer := buffer ++ [csvQuote]
  let buffer := buffer ++ replaceAll cell.1 csvQuote [csvQuote, csvQuote]
  buffer ++ [csvQuote]

/-- `row` of `Export`, on its buffer. -/
def reservationRow (buffer : Bytes) (cells : List Bytes) : Bytes :=
  cells.zipIdx.foldl reservationCellBytes buffer ++ [csvNewline]

/-- What a cell adds. -/
theorem reservationCellBytes_eq (buffer cell : Bytes) (index : ℕ) :
    reservationCellBytes buffer (cell, index) =
      buffer ++ ((if 0 < index then [csvComma] else []) ++ enclose cell) := by
  unfold reservationCellBytes
  by_cases hindex : 0 < index
  · simp only [if_pos hindex, List.append_assoc]
    rfl
  · simp only [if_neg hindex, List.append_assoc]
    rfl

/-- What the cells from an index on add. -/
theorem foldl_reservationCellBytes (cells : List Bytes) (index : ℕ) (buffer : Bytes) :
    (cells.zipIdx index).foldl reservationCellBytes buffer = buffer ++
      (if 0 < index ∧ cells ≠ [] then [csvComma] else []) ++ encloseAll cells := by
  induction cells generalizing index buffer with
  | nil => simp [encloseAll]
  | cons cell cells ih =>
    rw [List.zipIdx_cons, List.foldl_cons, ih, reservationCellBytes_eq]
    rcases cells with _ | ⟨second, cells⟩
    · simp [encloseAll]
    · simp [encloseAll, List.intercalate_cons_cons]

/-- A row adds its cells in quotes and LF. -/
theorem reservationRow_eq (buffer : Bytes) (cells : List Bytes) :
    reservationRow buffer cells = buffer ++ (encloseAll cells ++ [csvNewline]) := by
  unfold reservationRow
  rw [foldl_reservationCellBytes]
  simp

/-- A list of rows adds the lines of its rows. -/
theorem foldl_reservationRow (rows : List (List Bytes)) (buffer : Bytes) :
    rows.foldl reservationRow buffer =
      buffer ++ rows.flatMap fun cells => encloseAll cells ++ [csvNewline] := by
  induction rows generalizing buffer with
  | nil => simp
  | cons cells rows ih =>
    rw [List.foldl_cons, ih, reservationRow_eq, List.append_assoc, List.flatMap_cons]

/-! ## Reading back -/

/-- What `quotedCSVWriter` has written of rows that have a field is read back. -/
theorem QuotedCsvWriter.readCsv_written {ε : Type} {refuses : Bytes → Bytes → Option ε}
    {rows : List (List Bytes)} {w : QuotedCsvWriter ε} (hrows : ∀ fields ∈ rows, fields ≠ [])
    (h : rows.foldlM QuotedCsvWriter.row ⟨[], refuses⟩ = .ok w) : readCsv w.written = some rows := by
  rw [QuotedCsvWriter.written_of_rows h, List.nil_append]
  exact readCsv_lines .crlf hrows

/-- The rows of an export are read back from the bytes that either writer has written, when every
row has a field. -/
theorem export_rows_read_back (rows : List (List Bytes)) (hrows : ∀ fields ∈ rows, fields ≠ []) :
    (∀ (ε : Type) (refuses : Bytes → Bytes → Option ε) (w : QuotedCsvWriter ε),
      rows.foldlM QuotedCsvWriter.row ⟨[], refuses⟩ = .ok w → readCsv w.written = some rows) ∧
    readCsv (rows.foldl reservationRow []) = some rows := by
  constructor
  · intro ε refuses w hw
    exact QuotedCsvWriter.readCsv_written hrows hw
  · rw [foldl_reservationRow, List.nil_append]
    exact readCsv_lines .lf hrows

/-- A field with a quote, a comma and a line break, and an empty field in a row of its own. -/
theorem export_rows_read_back_sample :
    readCsv ([[[csvQuote, csvComma], [csvReturn, csvNewline]], [[]]].foldl reservationRow []) =
      some [[[csvQuote, csvComma], [csvReturn, csvNewline]], [[]]] :=
  (export_rows_read_back [[[csvQuote, csvComma], [csvReturn, csvNewline]], [[]]] (by simp)).2

/-- A row without fields comes back as a row with one empty field. -/
theorem empty_row_not_read_back :
    readCsv (([[]] : List (List Bytes)).foldl reservationRow []) = some [[[]]] ∧
    ([[]] : List (List Bytes)).foldlM QuotedCsvWriter.row
      (⟨[], fun _ _ => none⟩ : QuotedCsvWriter Unit) =
        .ok ⟨[csvReturn, csvNewline], fun _ _ => none⟩ ∧
    readCsv [csvReturn, csvNewline] = some [[[]]] ∧ ([[[]]] : List (List Bytes)) ≠ [[]] :=
  ⟨rfl, rfl, rfl, by decide⟩

/-! ## The rows of the exports -/

/-- The bytes of the fields of a row. -/
def ExportRow.bytes (r : ExportRow) : List Bytes := r.map GoString.bytes

/-- The header of the transfers export. -/
def transferHeader : ExportRow :=
  ["schema_version", "transfer_id", "source_account_id", "destination_account_id", "amount_minor",
    "currency", "financial_status", "delivery_status", "created_at_utc", "completed_at_utc",
    "journal_transaction_id", "rejection_code", "correction_id", "correction_status",
    "correction_role", "original_transfer_id", "compensation_transfer_id", "original_journal_id",
    "compensation_journal_id"].map goString

/-- The header of the ledger export of an account. -/
def accountLedgerHeader : ExportRow :=
  ["schema_version", "transfer_id", "direction", "amount_minor", "currency", "status",
    "occurred_at_utc", "correction_id", "correction_status", "correction_role",
    "original_transfer_id", "compensation_transfer_id"].map goString

/-- The header of the reconciliation export. -/
def reconciliationHeader : ExportRow :=
  ["schema_version", "record_type", "run_id", "status", "correlation_id", "scope",
    "ledger_watermark", "application_version", "database_schema_version", "checked_account_count",
    "posting_count", "mismatch_count", "started_at_utc", "completed_at_utc", "mismatch_id",
    "account_id", "classification", "currency", "expected_minor", "observed_minor",
    "observed_available_minor", "balance_version", "created_at_utc"].map goString

section Exports

variable {ε : Type} {r header : ExportRow}

/-- A row of the transfers export has a field for each column. -/
theorem length_transferRow {item : ExportedTransfer}
    (h : (transferRow item : Except (ExportError ε) ExportRow) = .ok r) :
    r.length = transferHeader.length := by
  unfold transferRow at h
  split at h
  · cases h
  · rw [← Except.ok.inj h]
    simp [transferHeader]

/-- A row of the ledger export has a field for each column. -/
theorem length_accountLedgerRow {item : ExportedEntry}
    (h : (accountLedgerRow item : Except (ExportError ε) ExportRow) = .ok r) :
    r.length = accountLedgerHeader.length := by
  unfold accountLedgerRow at h
  split at h
  · cases h
  · rw [← Except.ok.inj h]
    simp [accountLedgerHeader]

/-- A row of a run has a field for each column. -/
theorem length_reconciliationRunRow {run : ExportedRun}
    (h : (reconciliationRunRow run : Except (ExportError ε) ExportRow) = .ok r) :
    r.length = reconciliationHeader.length := by
  unfold reconciliationRunRow at h
  split at h
  · cases h
  · rw [← Except.ok.inj h]
    simp [reconciliationHeader]

/-- A row of a mismatch has a field for each column. -/
theorem length_reconciliationMismatchRow {run : ExportedRun} {mismatch : ExportedMismatch}
    (h : (reconciliationMismatchRow run mismatch : Except (ExportError ε) ExportRow) = .ok r) :
    r.length = reconciliationHeader.length := by
  unfold reconciliationMismatchRow at h
  -- The amounts, the currency and the version of the balance are checked one after another.
  split at h
  · cases h
  split at h
  · cases h
  split at h
  · cases h
  rw [← Except.ok.inj h]
  simp [reconciliationHeader]

section Columns

variable {α : Type} {list : String → ℕ → Except (ExportError ε) (List α × String)}
  {row : α → Except (ExportError ε) ExportRow} {written : List ExportRow} {stalled : String}
  {pageSize limit : ℕ} {cursor : String}

/-- The rows have as many fields as the header. -/
def FillColumns (header : ExportRow) (rows : List ExportRow) : Prop :=
  ∀ r ∈ rows, r.length = header.length

/-- A further row as long as the header fills the columns. -/
theorem FillColumns.snoc (h : FillColumns header written) (hr : r.length = header.length) :
    FillColumns header (written ++ [r]) := by
  intro r' hr'
  rcases List.mem_append.mp hr' with hr' | hr'
  · exact h r' hr'
  · rw [List.mem_singleton.mp hr', hr]

/-- Writing the records of a page leaves rows with all columns. -/
theorem FillColumns.writeItems (hrow : ∀ item r, row item = .ok r → r.length = header.length)
    {items : List α} (h : FillColumns header written) :
    FillColumns header (writeItems row items written).rows := by
  induction items generalizing written with
  | nil => exact h
  | cons item items ih =>
    rw [LedgerSync.writeItems]
    split
    · exact h
    · next r hr => exact ih (h.snoc (hrow item r hr))

/-- A stream leaves rows with all columns, however it ends. -/
theorem FillColumns.streamPages (hrow : ∀ item r, row item = .ok r → r.length = header.length)
    (h : FillColumns header written) :
    FillColumns header (streamPages list row stalled pageSize limit cursor written).rows := by
  fun_induction LedgerSync.streamPages list row stalled pageSize limit cursor written with
  | case1 => exact h
  | case2 => exact h.writeItems hrow
  | case3 => exact h.writeItems hrow
  | case4 _ _ _ _ _ _ _ _ _ ih => exact ih (h.writeItems hrow)
  | case5 => exact h

variable {mismatches : GoString → String → ℕ →
    Except (ExportError ε) (List ExportedMismatch × String)}
  {listRuns : String → ℕ → Except (ExportError ε) (List ExportedRun × String)}

/-- The runs of a page leave rows with all columns. -/
theorem FillColumns.streamRuns {runs : List ExportedRun}
    (h : FillColumns reconciliationHeader written) :
    FillColumns reconciliationHeader (streamRuns mismatches pageSize limit runs written).1.rows := by
  induction runs generalizing written with
  | nil => exact h
  | cons run runs ih =>
    rw [LedgerSync.streamRuns]
    split
    · exact h
    · next r hr =>
      have hinner : FillColumns reconciliationHeader
          (LedgerSync.streamPages (mismatches run.id) (reconciliationMismatchRow run)
            "mismatch cursor did not advance" pageSize limit "" (written ++ [r])).rows :=
        (h.snoc (length_reconciliationRunRow hr)).streamPages
          fun _ _ => length_reconciliationMismatchRow
      dsimp only
      split_ifs
      · exact hinner
      · exact hinner
      · exact ih hinner

/-- The stream of runs leaves rows with all columns, however it ends. -/
theorem FillColumns.streamRunPages (h : FillColumns reconciliationHeader written) :
    FillColumns reconciliationHeader
      (streamRunPages mismatches listRuns pageSize limit cursor written).rows := by
  fun_induction LedgerSync.streamRunPages mismatches listRuns pageSize limit cursor written with
  | case1 => exact h
  | case2 => exact h.streamRuns
  | case3 => exact h.streamRuns
  | case4 _ _ _ _ _ _ _ _ _ ih => exact ih h.streamRuns
  | case5 => exact h

end Columns

/-- A file of a header and rows that fill its columns is read back. -/
theorem FillColumns.read_back {ε : Type} {refuses : Bytes → Bytes → Option ε} {rows : List ExportRow}
    {w : QuotedCsvWriter ε} (h : FillColumns header rows) (hheader : header ≠ [])
    (hw : ((header :: rows).map ExportRow.bytes).foldlM QuotedCsvWriter.row ⟨[], refuses⟩ = .ok w) :
    readCsv w.written = some ((header :: rows).map ExportRow.bytes) := by
  refine QuotedCsvWriter.readCsv_written (fun fields hfields => ?_) hw
  obtain ⟨r, hr, rfl⟩ := List.mem_map.mp hfields
  unfold ExportRow.bytes
  rw [Ne, List.map_eq_nil_iff]
  rcases List.mem_cons.mp hr with rfl | hr
  · exact hheader
  · intro hnil
    have hlength := h r hr
    rw [hnil, List.length_nil, eq_comm, List.length_eq_zero_iff] at hlength
    exact hheader hlength

/-- **The files of the exports are tables.** Whatever an export over a repository comes to, the rows
behind its header have a field for each column. -/
theorem exports_fillColumns (s : ExportService ε) (tenantId actorId accountId : String)
    (transfers : ExportTransferFilter) (runs : ReconciliationFilter) (requestedRows : ℤ) :
    FillColumns transferHeader (s.streamTransfers tenantId actorId transfers requestedRows).rows ∧
    FillColumns accountLedgerHeader
      (s.streamAccountLedger tenantId actorId accountId requestedRows).rows ∧
    FillColumns reconciliationHeader
      (s.streamReconciliation tenantId actorId runs requestedRows).rows := by
  -- A refused export has no rows.
  have hnil : ∀ header : ExportRow, FillColumns header [] := fun _ r hr => by cases hr
  refine ⟨?_, ?_, ?_⟩
  · unfold ExportService.streamTransfers
    split
    · exact hnil _
    split_ifs
    · exact hnil _
    · exact (hnil _).streamPages fun _ _ => length_transferRow
  · unfold ExportService.streamAccountLedger
    split
    · exact hnil _
    split_ifs
    · exact hnil _
    · exact (hnil _).streamPages fun _ _ => length_accountLedgerRow
  · unfold ExportService.streamReconciliation
    split
    · exact hnil _
    split_ifs
    · exact hnil _
    · exact (hnil _).streamRunPages

/-- **The files of the exports are read back**: a reader of what the destination has taken finds the
header and the rows behind it. -/
theorem exports_read_back (s : ExportService ε) (tenantId actorId accountId : String)
    (transfers : ExportTransferFilter) (runs : ReconciliationFilter) (requestedRows : ℤ) :
    ∀ file ∈ [(transferHeader, s.streamTransfers tenantId actorId transfers requestedRows),
        (accountLedgerHeader, s.streamAccountLedger tenantId actorId accountId requestedRows),
        (reconciliationHeader, s.streamReconciliation tenantId actorId runs requestedRows)],
      ∀ (δ : Type) (refuses : Bytes → Bytes → Option δ) (w : QuotedCsvWriter δ),
        ((file.1 :: file.2.rows).map ExportRow.bytes).foldlM QuotedCsvWriter.row ⟨[], refuses⟩ =
            .ok w →
          readCsv w.written = some ((file.1 :: file.2.rows).map ExportRow.bytes) := by
  obtain ⟨htransfers, hledger, hreconciliation⟩ :=
    exports_fillColumns s tenantId actorId accountId transfers runs requestedRows
  intro file hfile δ refuses w hw
  simp only [List.mem_cons, List.not_mem_nil, or_false] at hfile
  rcases hfile with rfl | rfl | rfl
  · exact htransfers.read_back (List.cons_ne_nil _ _) hw
  · exact hledger.read_back (List.cons_ne_nil _ _) hw
  · exact hreconciliation.read_back (List.cons_ne_nil _ _) hw

end Exports

end LedgerSync
