import LedgerSync.StatementParsers

/-!
# Statements and their files

The file of an accepted statement is the statement written out: up to its line ends it is the header
and the canonical line of each row, joined by line feeds (`parse_faithful`). So two files of one
statement differ in nothing else.
-/

namespace LedgerSync

open Lib

/-! ## Bytes -/

section Bytes

/-- `bytes.ReplaceAll(source, "\r\n", "\n")`. -/
def replaceCrlfBytes : Bytes → Bytes
  | [] => []
  | b :: bs =>
    if b = 13 ∧ bs.head? = some 10 then replaceCrlfBytes bs else b :: replaceCrlfBytes bs

/-- A byte of a line end. -/
def isLineEndByte (b : UInt8) : Bool := b = 13 ∨ b = 10

/-- A source with LF for CRLF and without the carriage returns and line feeds at its end. -/
def withoutLineEnds (source : Bytes) : Bytes :=
  (replaceCrlfBytes source).rdropWhile isLineEndByte

/-- A text as the bytes of a source. -/
def encodeUtf8 (text : List Char) : Bytes := text.flatMap String.utf8EncodeChar

/-- A source is the bytes of its text. -/
theorem encodeUtf8_of_decodeUtf8 {source : Bytes} {text : List Char}
    (h : decodeUtf8 source = some text) : encodeUtf8 text = source := by
  obtain ⟨chars, hchars, rfl⟩ := Option.map_eq_some_iff.mp h
  have hget : source.toByteArray.utf8Decode?.isSome = true := by rw [hchars]; rfl
  have hencode := @ByteArray.utf8Encode_get_utf8Decode? source.toByteArray hget
  simp only [hchars, Option.get_some] at hencode
  have hdata := congrArg (fun b : ByteArray => b.data.toList) hencode
  simpa [List.utf8Encode, encodeUtf8] using hdata

/-- The byte of a character in ASCII. -/
def asciiByte (c : Char) : UInt8 := c.val.toUInt8

/-- ASCII characters are encoded in one octet each. -/
theorem encodeUtf8_ascii {text : List Char} (h : ∀ c ∈ text, c.toNat < 128) :
    encodeUtf8 text = text.map asciiByte := by
  induction text with
  | nil => rfl
  | cons c cs ih =>
    have hc := h c List.mem_cons_self
    have hsize : c.utf8Size = 1 := by
      rw [Char.utf8Size_eq_one_iff, UInt32.le_iff_toNat_le]
      exact Nat.le_of_lt_succ hc
    rw [encodeUtf8, List.flatMap_cons, String.utf8EncodeChar_eq_singleton hsize, List.map_cons,
      ← ih fun x hx => h x (List.mem_cons_of_mem _ hx)]
    rfl

/-- ASCII characters are known by their octets. -/
theorem asciiByte_eq_iff {c d : Char} (hc : c.toNat < 128) (hd : d.toNat < 128) :
    asciiByte c = asciiByte d ↔ c = d := by
  constructor
  · intro h
    have hnat := congrArg UInt8.toNat h
    simp only [asciiByte, UInt32.toNat_toUInt8] at hnat
    have hcval : c.val.toNat < 128 := hc
    have hdval : d.val.toNat < 128 := hd
    apply Char.ext
    apply UInt32.toNat_inj.mp
    omega
  · rintro rfl
    rfl

/-- The octets of a text lose their carriage returns as the text does. -/
theorem replaceCrlfBytes_map {text : List Char} (h : ∀ c ∈ text, c.toNat < 128) :
    replaceCrlfBytes (text.map asciiByte) = (replaceCrlf text).map asciiByte := by
  induction text with
  | nil => rfl
  | cons c cs ih =>
    have hrest : ∀ x ∈ cs, x.toNat < 128 := fun x hx => h x (List.mem_cons_of_mem _ hx)
    have hcr : asciiByte c = 13 ↔ c = '\r' :=
      asciiByte_eq_iff (d := '\r') (h c List.mem_cons_self) (by decide)
    have hlf : (cs.map asciiByte).head? = some 10 ↔ cs.head? = some '\n' := by
      rcases cs with _ | ⟨x, xs⟩
      · simp
      · have hx : asciiByte x = 10 ↔ x = '\n' :=
          asciiByte_eq_iff (d := '\n') (hrest x List.mem_cons_self) (by decide)
        simpa using hx
    rw [List.map_cons, replaceCrlfBytes, replaceCrlf, ih hrest]
    by_cases hends : c = '\r' ∧ cs.head? = some '\n'
    · rw [if_pos hends, if_pos ⟨hcr.mpr hends.1, hlf.mpr hends.2⟩]
    · rw [if_neg hends, if_neg fun hbytes => hends ⟨hcr.mp hbytes.1, hlf.mp hbytes.2⟩, List.map_cons]

/-- A source in ASCII without its line ends is its text without them. -/
theorem withoutLineEnds_encodeUtf8 {text : List Char} (h : ∀ c ∈ text, c.toNat < 128) :
    withoutLineEnds (encodeUtf8 text) =
      encodeUtf8 ((replaceCrlf text).rdropWhile isLineEnd) := by
  have hreplaced : ∀ c ∈ replaceCrlf text, c.toNat < 128 := fun c hc =>
    h c (mem_of_mem_replaceCrlf hc)
  -- What is left is ASCII as well, so that bytes and characters match one to one.
  have hkept : ∀ c ∈ (replaceCrlf text).rdropWhile isLineEnd, c.toNat < 128 := fun c hc =>
    hreplaced c ((List.rdropWhile_prefix _ _).subset hc)
  rw [encodeUtf8_ascii h, encodeUtf8_ascii hkept, withoutLineEnds, replaceCrlfBytes_map h]
  generalize replaceCrlf text = chars at hreplaced
  induction chars using List.reverseRecOn with
  | nil => rfl
  | append_singleton cs c ih =>
    have hc := hreplaced c (List.mem_append_right _ (List.mem_singleton_self c))
    have hcr : asciiByte c = 13 ↔ c = '\r' := asciiByte_eq_iff (d := '\r') hc (by decide)
    have hlf : asciiByte c = 10 ↔ c = '\n' := asciiByte_eq_iff (d := '\n') hc (by decide)
    -- A byte ends a line if its character does.
    have hend : isLineEndByte (asciiByte c) = isLineEnd c :=
      decide_eq_decide.mpr (or_congr hcr hlf)
    rw [List.map_append, List.map_singleton]
    by_cases h : isLineEnd c = true
    · rw [List.rdropWhile_concat_pos _ _ _ (hend.trans h), List.rdropWhile_concat_pos _ _ _ h]
      exact ih fun x hx => hreplaced x (List.mem_append_left _ hx)
    · have hbyte : ¬isLineEndByte (asciiByte c) = true := by rwa [hend]
      rw [List.rdropWhile_concat_neg _ _ _ hbyte, List.rdropWhile_concat_neg _ _ _ h,
        List.map_append, List.map_singleton]

end Bytes

/-! ## Statements -/

section Statements

variable {st : Statement}

/-- The minor units that the rows of a direction add up to. -/
def Statement.sum (st : Statement) (d : Direction) : ℤ :=
  ((st.rows.filter fun r => r.direction = d).map fun r => (r.amount : ℤ)).sum

/-- What the rows add to the balance is what the credits add, less the debits. -/
theorem sum_change (rows : List StatementRow) : (rows.map StatementRow.change).sum =
    ((rows.filter fun r => r.direction = .credit).map fun r => (r.amount : ℤ)).sum -
      ((rows.filter fun r => r.direction = .debit).map fun r => (r.amount : ℤ)).sum := by
  induction rows with
  | nil => rfl
  | cons r rows ih =>
    rw [List.map_cons, List.sum_cons, ih]
    rcases hd : r.direction with - | -
    · simp [StatementRow.change, hd]
      omega
    · simp [StatementRow.change, hd]
      omega

/-- A text of tokens, commas and line ends is in ASCII. -/
theorem toNat_lt_of_text {c : Char} (h : c = '\n' ∨ c = '\r' ∨ c = ',' ∨ IsTokenChar c) :
    c.toNat < 128 := by
  rcases h with rfl | rfl | rfl | h | h
  · decide
  · decide
  · decide
  · unfold Char.isAlphanum Char.isAlpha Char.isUpper Char.isLower Char.isDigit at h
    simp only [Bool.or_eq_true, Bool.and_eq_true, decide_eq_true_eq, UInt32.le_iff_toNat_le] at h
    have hnat : c.toNat = c.val.toNat := rfl
    have hz : ('z' : Char).val.toNat = 122 := rfl
    have hZ : ('Z' : Char).val.toNat = 90 := rfl
    have h9 : ('9' : Char).val.toNat = 57 := rfl
    omega
  · rcases h with rfl | rfl | rfl | rfl | rfl <;> decide

/-- The file of an accepted statement, up to its line ends. -/
theorem withoutLineEnds_of_parse {source : Bytes} (h : parse source = .ok st) :
    withoutLineEnds source = encodeUtf8 (['\n'].intercalate st.lines) := by
  obtain ⟨-, hst, text, htext, hw⟩ := parse_ok_iff.mp h
  rw [← encodeUtf8_of_decodeUtf8 htext]
  rcases hw with hw | ⟨text', rfl, hw⟩
  · rw [withoutLineEnds_encodeUtf8 fun c hc => toNat_lt_of_text (hst.mem_text hw hc),
      hw.joined hst.plain]
  · have hascii : ∀ c ∈ text' ++ ['\r'], c.toNat < 128 := by
      intro c hc
      rcases List.mem_append.mp hc with hc | hc
      · exact toNat_lt_of_text (hst.mem_text hw hc)
      · rw [List.mem_singleton.mp hc]
        decide
    rw [withoutLineEnds_encodeUtf8 hascii, replaceCrlf_append_cr, List.rdropWhile_concat_pos _ _ _ rfl,
      hw.joined hst.plain]

/-- **The parser is sound and faithful.** An accepted statement has rows that are told apart, lie in
its period and add up, and its file is the statement written out, up to the line ends; the same goes
for every other file of it. -/
theorem parse_faithful {source : Bytes} (h : parse source = .ok st) :
    (1 ≤ st.rows.length ∧ st.rows.length ≤ 1000) ∧
    (st.rows.map StatementRow.id).Nodup ∧
    (∀ r ∈ st.rows, st.periodStart ≤ r.postedAt ∧ r.postedAt < st.periodEnd) ∧
    (∀ r ∈ st.rows, 0 < (r.amount : ℤ)) ∧
    (st.opening : ℤ) + st.sum .credit - st.sum .debit = st.closing ∧
    withoutLineEnds source = encodeUtf8 (['\n'].intercalate st.lines) ∧
    ∀ other, parse other = .ok st → withoutLineEnds other = withoutLineEnds source := by
  have hfile := withoutLineEnds_of_parse h
  obtain ⟨-, hst, -⟩ := parse_ok_iff.mp h
  have htotal := hst.total
  rw [sum_change] at htotal
  refine ⟨⟨List.length_pos_iff.mpr hst.ne_nil, hst.length⟩, hst.ids,
    fun r hr => (hst.rows r hr).within,
    fun r hr => (hst.rows r hr).amount, ?_, hfile, fun other hother => ?_⟩
  · unfold Statement.sum
    omega
  · rw [hfile, withoutLineEnds_of_parse hother]

end Statements

/-- The file with a carriage return after it is the statement that it writes. -/
theorem parse_faithful_sample :
    withoutLineEnds Sample.returnSource = encodeUtf8 (['\n'].intercalate Sample.statement.lines) :=
  (parse_faithful (parse_ok_iff.mpr ⟨Sample.length_returnSource, Sample.statement_valid, _,
    decodeUtf8_encode _, .inr ⟨_, rfl, Sample.statementText_written⟩⟩)).2.2.2.2.2.1

end LedgerSync
