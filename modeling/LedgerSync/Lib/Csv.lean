import Mathlib.Data.Nat.Notation
import Mathlib.Data.List.Basic

/-!
# A reader of comma separated values

The reader of RFC 4180 over bytes, as a machine that looks at one byte at a time. A field may be
enclosed in quotes, and two quotes inside it stand for one. A record has at least one field and ends
at CRLF or LF, and the end of line behind the last record may be missing. The rules say where the
reader stands behind an enclosed field and behind a record written with such fields
(`readFrom_enclose`, `readFrom_fields`), from which whole files are read back (`readCsv_lines`).
-/

namespace LedgerSync.Lib

/-- A comma. -/
def csvComma : UInt8 := 0x2c

/-- A quote. -/
def csvQuote : UInt8 := 0x22

/-- CR. -/
def csvReturn : UInt8 := 0x0d

/-- LF. -/
def csvNewline : UInt8 := 0x0a

/-- Where the reader stands. -/
inductive CsvPlace where
  | recordStart
  | fieldStart
  | unquoted
  | quoted
  | quoteInQuoted
  | carriage
deriving DecidableEq

/-- The records from a place on: `field` is what has been read of the field, `row` the fields in
front of it. -/
def readFrom : CsvPlace → List UInt8 → List (List UInt8) → List UInt8 →
    Option (List (List (List UInt8)))
  | .recordStart, _, _, [] => some []
  | .fieldStart, field, row, [] => some [row ++ [field]]
  | .unquoted, field, row, [] => some [row ++ [field]]
  | .quoteInQuoted, field, row, [] => some [row ++ [field]]
  | .quoted, _, _, [] => none
  | .carriage, _, _, [] => none
  | .quoted, field, row, b :: rest =>
    if b = csvQuote then readFrom .quoteInQuoted field row rest
    else readFrom .quoted (field ++ [b]) row rest
  | .carriage, field, row, b :: rest =>
    if b = csvNewline then (readFrom .recordStart [] [] rest).map ((row ++ [field]) :: ·) else none
  | place, field, row, b :: rest =>
    if b = csvComma then readFrom .fieldStart [] (row ++ [field]) rest
    else if b = csvReturn then readFrom .carriage field row rest
    else if b = csvNewline then (readFrom .recordStart [] [] rest).map ((row ++ [field]) :: ·)
    else if b = csvQuote then
      -- A quote opens a field, or is the second of two inside one.
      match place with
      | .unquoted => none
      | .quoteInQuoted => readFrom .quoted (field ++ [b]) row rest
      | _ => readFrom .quoted field row rest
    else if place = .quoteInQuoted then none
    else readFrom .unquoted (field ++ [b]) row rest

/-- The records of a file. -/
def readCsv (text : List UInt8) : Option (List (List (List UInt8))) :=
  readFrom .recordStart [] [] text

/-! ## Enclosed fields -/

/-- A text with every quote written twice. -/
def doubleQuotes (field : List UInt8) : List UInt8 :=
  field.flatMap fun b => if b = csvQuote then [csvQuote, csvQuote] else [b]

/-- A field in quotes. -/
def enclose (field : List UInt8) : List UInt8 := csvQuote :: (doubleQuotes field ++ [csvQuote])

/-- What ends a record. -/
inductive IsLineEnd : List UInt8 → Prop
  | crlf : IsLineEnd [csvReturn, csvNewline]
  | lf : IsLineEnd [csvNewline]

section Records

variable {field : List UInt8} {row : List (List UInt8)} {rest lineEnd : List UInt8}

/-- Inside quotes, a text with its quotes written twice is read as the text. -/
theorem readFrom_doubleQuotes (text : List UInt8) :
    readFrom .quoted field row (doubleQuotes text ++ csvQuote :: rest) =
      readFrom .quoteInQuoted (field ++ text) row rest := by
  induction text generalizing field with
  | nil =>
    rw [List.append_nil]
    exact (readFrom.eq_def ..).trans (if_pos rfl)
  | cons b text ih =>
    have hcons : doubleQuotes (b :: text) =
        (if b = csvQuote then [csvQuote, csvQuote] else [b]) ++ doubleQuotes text :=
      List.flatMap_cons
    have hmore : field ++ b :: text = (field ++ [b]) ++ text := by simp
    rw [hcons, hmore, ← ih]
    by_cases hb : b = csvQuote
    · subst hb
      rw [if_pos rfl]
      -- The first quote might end the field; the second says that it does not.
      show readFrom .quoted field row
        (csvQuote :: csvQuote :: (doubleQuotes text ++ csvQuote :: rest)) = _
      have hfirst : readFrom .quoted field row
          (csvQuote :: csvQuote :: (doubleQuotes text ++ csvQuote :: rest)) =
            readFrom .quoteInQuoted field row
              (csvQuote :: (doubleQuotes text ++ csvQuote :: rest)) :=
        (readFrom.eq_def ..).trans (if_pos rfl)
      rw [hfirst]
      rfl
    · rw [if_neg hb]
      exact (readFrom.eq_def ..).trans (if_neg hb)

/-- A field in quotes at the start of a field. -/
theorem readFrom_enclose {start : CsvPlace} (hstart : start = .recordStart ∨ start = .fieldStart)
    (text : List UInt8) :
    readFrom start [] row (enclose text ++ rest) = readFrom .quoteInQuoted text row rest := by
  have hopen : readFrom start [] row (enclose text ++ rest) =
      readFrom .quoted [] row (doubleQuotes text ++ csvQuote :: rest) := by
    unfold enclose
    rw [List.cons_append, List.append_assoc, List.singleton_append]
    rcases hstart with rfl | rfl
    · rfl
    · rfl
  rw [hopen, readFrom_doubleQuotes, List.nil_append]

/-- The end of a record behind a field in quotes. -/
theorem readFrom_lineEnd (h : IsLineEnd lineEnd) :
    readFrom .quoteInQuoted field row (lineEnd ++ rest) =
      (readFrom .recordStart [] [] rest).map ((row ++ [field]) :: ·) := by
  cases h with
  | crlf => rfl
  | lf => rfl

/-- The fields of a record in quotes, with commas between them. -/
def encloseAll (fields : List (List UInt8)) : List UInt8 :=
  [csvComma].intercalate (fields.map enclose)

/-- The fields of a record are read as they are, in front of the records behind it. -/
theorem readFrom_fields (h : IsLineEnd lineEnd) {start : CsvPlace}
    (hstart : start = .recordStart ∨ start = .fieldStart) (first : List UInt8)
    (fields : List (List UInt8)) :
    readFrom start [] row (encloseAll (first :: fields) ++ lineEnd ++ rest) =
      (readFrom .recordStart [] [] rest).map ((row ++ first :: fields) :: ·) := by
  induction fields generalizing row start first with
  | nil =>
    have hone : encloseAll [first] = enclose first := List.intercalate_singleton
    rw [hone, List.append_assoc, readFrom_enclose hstart, readFrom_lineEnd h]
  | cons second fields ih =>
    have hmore : encloseAll (first :: second :: fields) ++ lineEnd ++ rest =
        enclose first ++ csvComma :: (encloseAll (second :: fields) ++ lineEnd ++ rest) := by
      unfold encloseAll
      rw [List.map_cons, List.map_cons, List.intercalate_cons_cons]
      simp only [List.append_assoc, List.cons_append, List.nil_append]
    have hcomma : readFrom .quoteInQuoted first row
        (csvComma :: (encloseAll (second :: fields) ++ lineEnd ++ rest)) =
          readFrom .fieldStart [] (row ++ [first])
            (encloseAll (second :: fields) ++ lineEnd ++ rest) := rfl
    rw [hmore, readFrom_enclose hstart, hcomma, ih (.inr rfl), List.append_assoc,
      List.singleton_append]

end Records

/-- A file whose records have at least one field, all of them in quotes, is read back. -/
theorem readCsv_lines {lineEnd : List UInt8} (h : IsLineEnd lineEnd)
    {rows : List (List (List UInt8))} (hrows : ∀ row ∈ rows, row ≠ []) :
    readCsv (rows.flatMap fun row => encloseAll row ++ lineEnd) = some rows := by
  unfold readCsv
  induction rows with
  | nil => rfl
  | cons row rows ih =>
    obtain ⟨first, fields, rfl⟩ := List.exists_cons_of_ne_nil (hrows row List.mem_cons_self)
    rw [List.flatMap_cons, readFrom_fields h (.inl rfl) first fields,
      ih fun r hr => hrows r (List.mem_cons_of_mem _ hr)]
    rfl

end LedgerSync.Lib
