import LedgerSync.Lib.Lines
import LedgerSync.Statements

/-!
# Statement files

A statement file is parsed twice: by the Go service, `statementreconciliation.Parse`, and by the
stored procedure that keeps the file, `controlled_statement_import_v1`. Both are modelled here as
they are written, the service over the standard library's CSV reader and `time.Parse`, the procedure
over `string_to_array`, regular expressions and casts. Texts are lists of characters once a file has
been decoded from UTF-8, which both do first.
-/

namespace LedgerSync

open Lib

/-! ## What a file says -/

/-- One row of a statement. -/
structure StatementRow where
  id : String
  reference : String
  direction : Direction
  amount : Bigint
  currency : String
  postedAt : Instant
deriving DecidableEq

/-- What every row of a statement repeats. -/
structure StatementPeriod where
  sourceAccountRef : String
  periodStart : Instant
  periodEnd : Instant
  opening : Bigint
  closing : Bigint
deriving DecidableEq

/-- A parsed statement. -/
structure Statement extends StatementPeriod where
  rows : List StatementRow
deriving DecidableEq

/-- What a row adds to the balance of the source account. -/
def StatementRow.change (r : StatementRow) : ℤ :=
  match r.direction with
  | .debit => -r.amount
  | .credit => r.amount

/-- `debit` or `credit`. -/
def directionOf? (s : String) : Option Direction :=
  if s = "debit" then some .debit else if s = "credit" then some .credit else none

/-- `MaxSourceBytes`. -/
def maxSourceBytes : ℕ := 1048576

/-- `MaxRows`. -/
def maxRows : ℕ := 1000

/-- `Header`. -/
def statementHeader : String :=
  "row_id,source_account_ref,period_start,period_end,posted_at,external_reference,direction," ++
    "amount_minor,currency,opening_minor,closing_minor"

/-! ## Patterns

The service and the procedure test the same regular expressions. -/

/-- A character of a token after the first: `A` to `Z`, `a` to `z`, `0` to `9`, `.`, `_`, `:`, `/`
and `-`. -/
def IsTokenChar (c : Char) : Prop :=
  c.isAlphanum = true ∨ c = '.' ∨ c = '_' ∨ c = ':' ∨ c = '/' ∨ c = '-'

/-- Whether a character is one of tokens can be decided. -/
instance (c : Char) : Decidable (IsTokenChar c) :=
  inferInstanceAs (Decidable (_ ∨ _ ∨ _ ∨ _ ∨ _ ∨ _))

/-- `[A-Za-z0-9][…]{0,127}`, where the second class is `IsTokenChar`. -/
def IsTokenText : List Char → Prop
  | [] => False
  | c :: cs => c.isAlphanum = true ∧ cs.length ≤ 127 ∧ ∀ x ∈ cs, IsTokenChar x

/-- Whether characters are those of a token can be decided. -/
instance : (cs : List Char) → Decidable (IsTokenText cs)
  | [] => inferInstanceAs (Decidable False)
  | _ :: _ => inferInstanceAs (Decidable (_ ∧ _ ∧ _))

/-- `token`. -/
def IsToken (s : String) : Prop := IsTokenText s.toList

/-- Whether a text is a token can be decided. -/
instance (s : String) : Decidable (IsToken s) := inferInstanceAs (Decidable (IsTokenText _))

/-- `[1-9][0-9]{0,18}`. -/
def IsPositiveDigits : List Char → Prop
  | [] => False
  | c :: cs => c.isDigit = true ∧ c ≠ '0' ∧ cs.length ≤ 18 ∧ ∀ x ∈ cs, x.isDigit = true

/-- Whether digits are those of a positive number can be decided. -/
instance : (ds : List Char) → Decidable (IsPositiveDigits ds)
  | [] => inferInstanceAs (Decidable False)
  | _ :: _ => inferInstanceAs (Decidable (_ ∧ _ ∧ _ ∧ _))

/-- `unsigned`, `^[1-9][0-9]{0,18}$`. -/
def IsUnsigned (s : String) : Prop := IsPositiveDigits s.toList

/-- Whether a text is an unsigned amount can be decided. -/
instance (s : String) : Decidable (IsUnsigned s) := inferInstanceAs (Decidable (IsPositiveDigits _))

/-- `signed`, `^(0|-?[1-9][0-9]{0,18})$`. -/
def IsSigned (s : String) : Prop :=
  s = "0" ∨ IsPositiveDigits s.toList ∨
    (s.toList.head? = some '-' ∧ IsPositiveDigits s.toList.tail)

/-- Whether a text is a signed amount can be decided. -/
instance (s : String) : Decidable (IsSigned s) := inferInstanceAs (Decidable (_ ∨ _ ∨ _ ∧ _))

/-- `^[0-9]{4}-[0-9]{2}-[0-9]{2}T[0-9]{2}:[0-9]{2}:[0-9]{2}Z$`. -/
def HasTimeShape (s : String) : Prop :=
  s.toList.length = 20 ∧ ∀ x ∈ s.toList.zip "0000-00-00T00:00:00Z".toList,
    if x.2 = '0' then x.1.isDigit = true else x.1 = x.2

/-- Whether a text has the shape of a time can be decided. -/
instance (s : String) : Decidable (HasTimeShape s) := inferInstanceAs (Decidable (_ ∧ ∀ x ∈ _, _))

/-- A file as a text: `utf8.Valid`, `convert_from(source, 'UTF8')`. -/
def decodeUtf8 (source : Bytes) : Option (List Char) :=
  source.toByteArray.utf8Decode?.map Array.toList

/-! ## The service -/

/-- `ValidationError`. -/
structure ValidationError where
  row : ℕ
  code : String
deriving DecidableEq

/-- `getnum(value, false)` for the hour: two digits, or one. -/
def readHour (cs : List Char) : Option (ℕ × List Char) :=
  match readDigits 2 cs with
  | some r => some r
  | none => readDigits 1 cs

/-- `time.Parse` accepts a fraction after the seconds although the layout has none. -/
def skipFraction : List Char → List Char
  | c :: d :: cs => if (c = '.' ∨ c = ',') ∧ d.isDigit = true then cs.dropWhile Char.isDigit
    else c :: d :: cs
  | cs => cs

/-- `time.Parse("2006-01-02T15:04:05Z", s)`: the date and the second of the day. -/
def timeParse (s : List Char) : Option (Civil × ℕ) := do
  let (date, cs) ← readDate s
  let cs ← readChar 'T' cs
  let (hour, cs) ← readHour cs
  let cs ← readChar ':' cs
  let (minute, cs) ← readBetween 2 0 59 cs
  let cs ← readChar ':' cs
  let (second, cs) ← readBetween 2 0 59 cs
  if hour < 24 ∧ skipFraction cs = ['Z'] then some (date, (hour * 60 + minute) * 60 + second)
  else none

/-- `canonicalTime`. A time with a fraction differs from its format, so what is returned has whole
seconds. -/
def canonicalTime (s : String) : Option Instant := do
  let (date, second) ← timeParse s.toList
  if date.year < 1 then none
  else
    let secs := date.toDays * 86400 + second
    if s.toList ≠ wholeText secs.toNat then none else some (secs * 1000000)

/-- `minor`. -/
def minor (s : String) (positive : Bool) : Option Bigint :=
  if (positive = true ∧ ¬IsUnsigned s) ∨ (positive = false ∧ ¬IsSigned s) then none
  else (parseInt64 s).bind Bigint.ofInt?

/-- The records of `csv.Reader` for a text without quotes: a line ends at a line feed or at the end
of the text, one carriage return before either is dropped, and empty lines are skipped. -/
def csvRecords (text : List Char) : List (List String) :=
  (((text.splitOn '\n').map dropCr).filter (· ≠ [])).map fun line =>
    (line.splitOn ',').map String.ofList

/-- The variables of the loop of `Parse`. -/
structure ParseState where
  line : ℕ
  metadata : Option (List String)
  result : Statement
  ids : List String
  total : ℤ

/-- The variables before the loop. -/
def ParseState.start : ParseState :=
  ⟨2, none, ⟨⟨"", 0, 0, .zero, .zero⟩, []⟩, [], 0⟩

/-- A field of a row that must have a value. -/
def expectField {α : Type} (o : Option α) (row : ℕ) (code : String) : Except ValidationError α :=
  match o with
  | some a => .ok a
  | none => .error ⟨row, code⟩

/-- A condition on a row that must not hold. -/
def failIf (c : Prop) [Decidable c] (row : ℕ) (code : String) : Except ValidationError Unit :=
  if c then .error ⟨row, code⟩ else .ok ()

/-- The body of the loop of `Parse`. A record with another number of fields is an error of the
reader. -/
def parseRow (s : ParseState) : List String → Except ValidationError ParseState
  | [f0, f1, f2, f3, f4, f5, f6, f7, f8, f9, f10] => do
    failIf (maxRows ≤ s.result.rows.length) s.line "row_limit"
    failIf (¬IsToken f0 ∨ ¬IsToken f1 ∨ ¬IsToken f5 ∨ f0 ∈ s.ids) s.line "row_identity"
    failIf (f8 ≠ "INR") s.line "currency_or_direction"
    let direction ← expectField (directionOf? f6) s.line "currency_or_direction"
    let amount ← expectField (minor f7 true) s.line "amount"
    let opening ← expectField (minor f9 false) s.line "opening"
    let closing ← expectField (minor f10 false) s.line "closing"
    let start ← expectField (canonicalTime f2) s.line "period_start"
    let stop ← expectField (canonicalTime f3) s.line "period_end"
    failIf (stop ≤ start) s.line "period_end"
    let posted ← expectField (canonicalTime f4) s.line "posted_at"
    failIf (posted < start ∨ stop ≤ posted) s.line "posted_at"
    let current := [f1, f2, f3, f8, f9, f10]
    failIf (∃ x, s.metadata = some x ∧ x ≠ current) s.line "mixed_metadata"
    let period := match s.metadata with
      | none => ⟨f1, start, stop, opening, closing⟩
      | some _ => s.result.toStatementPeriod
    let row : StatementRow := ⟨f0, f5, direction, amount, f8, posted⟩
    .ok ⟨s.line + 1, some (s.metadata.getD current), ⟨period, s.result.rows ++ [row]⟩, f0 :: s.ids,
      s.total + row.change⟩
  | _ => .error ⟨s.line, "csv"⟩

/-- `Parse`, once the file is a text. -/
def parseText (text : List Char) : Except ValidationError Statement :=
  match ((replaceCrlf text).splitOn '\n').dropLast.findIdx? (· = []) with
  | some i => .error ⟨i + 1, "blank_row"⟩
  | none => match csvRecords text with
    | [] => .error ⟨1, "header"⟩
    | header :: records => do
      failIf (header ≠ (statementHeader.toList.splitOn ',').map String.ofList) 1 "header"
      let s ← records.foldlM parseRow .start
      failIf (s.result.rows = []) 2 "empty_statement"
      failIf ((s.result.opening : ℤ) + s.total ≠ s.result.closing) 0 "balance_total"
      .ok s.result

/-- `Parse`. -/
def parse (source : Bytes) : Except ValidationError Statement :=
  match decodeUtf8 source with
  | none => .error ⟨0, "encoding_or_size"⟩
  | some text =>
    if source.length = 0 ∨ maxSourceBytes < source.length ∨ text.head? = some '\uFEFF' ∨
        '\x00' ∈ text ∨ '"' ∈ text then .error ⟨0, "encoding_or_size"⟩
    else parseText text

/-! ## The procedure -/

/-- A condition that must not hold, in a procedure that reads no table. -/
def raiseOn (c : Prop) [Decidable c] (e : PgError) : Except PgError Unit :=
  if c then .error e else .ok ()

/-- A cast that must succeed. -/
def castOr {α : Type} (o : Option α) (e : PgError) : Except PgError α :=
  match o with
  | some a => .ok a
  | none => .error e

/-- `s::bigint`, of a text that `IsSigned` accepts. -/
def castBigint (s : String) : Option Bigint := (parseInt64 s).bind Bigint.ofInt?

/-- `s::timestamptz`, of a text that `HasTimeShape` accepts, in seconds. The cast accepts the second
60 and the hour 24 where the time of day does not pass the end of the day. -/
def castSeconds (s : List Char) : Option ℤ := do
  let (date, cs) ← readDate s
  let cs ← readChar 'T' cs
  let (hour, cs) ← readBetween 2 0 24 cs
  let cs ← readChar ':' cs
  let (minute, cs) ← readBetween 2 0 59 cs
  let cs ← readChar ':' cs
  let (second, _) ← readBetween 2 0 60 cs
  let time := (hour * 60 + minute) * 60 + second
  if 1 ≤ date.year ∧ time ≤ 86400 then some (date.toDays * 86400 + time) else none

/-- `to_char(t AT TIME ZONE 'UTC', 'YYYY-MM-DD"T"HH24:MI:SS"Z"')`: from the year 10000 on, the year
has more than four digits. -/
def toChar (secs : ℕ) : List Char :=
  if secs < wholeSeconds then wholeText secs
  else
    let date := Civil.ofDays (secs / 86400)
    Nat.toDigits 10 date.year ++ '-' :: (padDigits 2 date.month ++ '-' :: (padDigits 2 date.day ++
      'T' :: (clockText (secs % 86400) ++ ['Z'])))

/-- The variables of the loop of the procedure. -/
structure ImportState where
  metadata : Option (List String)
  rowIds : List String
  total : ℤ
  rowData : List StatementRow
  opening : Bigint
  closing : Bigint
  firstAt : Instant
  lastAt : Instant

/-- The variables before the loop. -/
def ImportState.start : ImportState := ⟨none, [], 0, [], .zero, .zero, 0, 0⟩

/-- The error of a row that is not of the format. -/
def invalidCsvRow : PgError := ⟨"22023", "", "invalid statement CSV row"⟩

/-- The error of a period that ends before it begins. -/
def invalidPeriod : PgError := ⟨"22023", "", "invalid statement period"⟩

/-- The error of rows with other metadata than the first. -/
def mixedMetadata : PgError := ⟨"22023", "", "mixed statement metadata"⟩

/-- The error of a cast of a date that is not in the calendar. -/
def datetimeOutOfRange : PgError := ⟨"22008", "", "date/time field value out of range"⟩

/-- A time of a row, `s::timestamptz`. -/
def castInstant (s : String) : Except PgError Instant := do
  let secs ← castOr (castSeconds s.toList) datetimeOutOfRange
  .ok (secs * 1000000)

/-- A time does not come back as the text that it was read from. -/
def ChangesText (t : Instant) (s : String) : Prop := toChar (t / 1000000).toNat ≠ s.toList

/-- Whether a time is written otherwise can be decided. -/
instance (t : Instant) (s : String) : Decidable (ChangesText t s) :=
  inferInstanceAs (Decidable (_ ≠ _))

/-- The body of the loop of the procedure, for the fields of a line. -/
def importRow (ref : String) (s : ImportState) : List String → Except PgError ImportState
  | [f1, f2, f3, f4, f5, f6, f7, f8, f9, f10, f11] => do
    raiseOn (¬IsToken f1 ∨ f2 ≠ ref ∨ ¬IsToken f6 ∨ f1 ∈ s.rowIds ∨ directionOf? f7 = none ∨
      f9 ≠ "INR" ∨ ¬IsUnsigned f8 ∨ ¬IsSigned f10 ∨ ¬IsSigned f11 ∨ ¬HasTimeShape f3 ∨
      ¬HasTimeShape f4 ∨ ¬HasTimeShape f5) invalidCsvRow
    let direction ← castOr (directionOf? f7) invalidCsvRow
    let amount ← castOr (castBigint f8) outOfRange
    let opening ← castOr (castBigint f10) outOfRange
    let closing ← castOr (castBigint f11) outOfRange
    let firstAt ← castInstant f3
    let lastAt ← castInstant f4
    let posted ← castInstant f5
    raiseOn (lastAt ≤ firstAt ∨ posted < firstAt ∨ lastAt ≤ posted ∨ ChangesText firstAt f3 ∨
      ChangesText lastAt f4 ∨ ChangesText posted f5) invalidPeriod
    let current := [f2, f3, f4, f9, f10, f11]
    raiseOn (∃ x, s.metadata = some x ∧ x ≠ current) mixedMetadata
    let row : StatementRow := ⟨f1, f6, direction, amount, "INR", posted⟩
    .ok ⟨some (s.metadata.getD current), s.rowIds ++ [f1], s.total + row.change, s.rowData ++ [row],
      opening, closing, firstAt, lastAt⟩
  | _ => .error invalidCsvRow

/-- `string_to_array(line, ',')`, which is empty for an empty line. -/
def lineFields (line : List Char) : List String :=
  if line = [] then [] else (line.splitOn ',').map String.ofList

/-- The parsing part of `controlled_statement_import_v1`. -/
def importText (ref : String) (source : Bytes) : Except PgError Statement := do
  raiseOn (source.length < 1 ∨ maxSourceBytes < source.length)
    ⟨"22023", "", "statement source size"⟩
  let decoded ← castOr ((decodeUtf8 source).filter fun text => '\x00' ∉ text)
    ⟨"22021", "", "invalid byte sequence for encoding"⟩
  let text := replaceCrlf decoded
  raiseOn ('"' ∈ text ∨ '\r' ∈ text) ⟨"22023", "", "quoted or invalid CSV"⟩
  let lines := cutLines text
  raiseOn (lines.length < 2 ∨ 1001 < lines.length ∨ lines.head? ≠ some statementHeader.toList)
    ⟨"22023", "", "statement CSV header or rows"⟩
  let s ← (lines.tail.map lineFields).foldlM (importRow ref) .start
  raiseOn ((s.opening : ℤ) + s.total ≠ s.closing) ⟨"22023", "", "statement total mismatch"⟩
  .ok ⟨⟨ref, s.firstAt, s.lastAt, s.opening, s.closing⟩, s.rowData⟩

end LedgerSync
