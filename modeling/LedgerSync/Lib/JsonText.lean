import LedgerSync.Lib.Decimal
import LedgerSync.Lib.Framing
import LedgerSync.Lib.JsonScanner

/-!
# Objects as JSON texts

What `encoding/json` makes of the bytes of an object. The scanner checks the whole text first. Then
its members are read in their order, each with what stands in the quotes of its name and with its
value: the raw text of a string, a literal, or something nested, which is skipped. A byte that is
not part of a character counts as the replacement character. The text that `json.Marshal` writes for
fields is read back as these fields (`membersOf_objectText`).
-/

namespace LedgerSync.Lib

/-! ## Runes -/

/-- The runes of bytes, of which the first `skip` belong to the rune before. -/
def runesFrom : ℕ → List UInt8 → List Char
  | _, [] => []
  | skip + 1, _ :: rest => runesFrom skip rest
  | 0, b :: rest =>
    match ByteArray.utf8DecodeChar? (b :: rest).toByteArray 0 with
    | some c => c :: runesFrom (c.utf8Size - 1) rest
    | none => '\ufffd' :: runesFrom 0 rest

/-- The runes of bytes, as `utf8.DecodeRune` gives them. -/
def runes (bytes : List UInt8) : List Char := runesFrom 0 bytes

/-- Octets that are skipped do not count. -/
theorem runesFrom_length (skipped rest : List UInt8) :
    runesFrom skipped.length (skipped ++ rest) = runesFrom 0 rest := by
  induction skipped with
  | nil => rfl
  | cons b skipped ih => exact ih

/-- The bytes of characters in UTF-8. -/
def encodeRunes (cs : List Char) : List UInt8 := cs.flatMap String.utf8EncodeChar

/-- The runes of encoded characters are these characters. -/
theorem runes_encodeRunes (cs : List Char) : runes (encodeRunes cs) = cs := by
  unfold runes encodeRunes
  induction cs with
  | nil => rfl
  | cons c cs ih =>
    -- A character is encoded in at least one byte, of which the first tells the length.
    have hlength : (String.utf8EncodeChar c).length = c.utf8Size := String.length_utf8EncodeChar c
    have hpos := c.utf8Size_pos
    obtain ⟨b, tail, hbytes⟩ : ∃ b tail, String.utf8EncodeChar c = b :: tail :=
      List.exists_cons_of_length_pos (by omega)
    have htail : tail.length = c.utf8Size - 1 := by
      rw [hbytes, List.length_cons] at hlength
      omega
    -- Decoding the first character does not look behind it.
    have hdecode : ByteArray.utf8DecodeChar?
        (b :: (tail ++ cs.flatMap String.utf8EncodeChar)).toByteArray 0 = some c := by
      have happend := @ByteArray.utf8DecodeChar?_utf8EncodeChar_append
        (cs.flatMap String.utf8EncodeChar).toByteArray c
      rw [← List.toByteArray_append, hbytes] at happend
      exact happend
    rw [List.flatMap_cons, hbytes, List.cons_append, runesFrom, hdecode]
    simp only
    rw [← htail, runesFrom_length, ih]

/-! ## Quoted texts -/

/-- `getu4`, without the `\u` in front. -/
def codeUnit? (text : List Char) : Option ℕ :=
  if 4 ≤ text.length then ofHexDigits? (text.take 4) else none

/-- The first half of a surrogate pair. -/
def IsHighSurrogate (unit : ℕ) : Prop := 0xd800 ≤ unit ∧ unit < 0xdc00

/-- Whether a unit is a high surrogate can be decided. -/
instance IsHighSurrogate.decidable (unit : ℕ) : Decidable (IsHighSurrogate unit) :=
  inferInstanceAs (Decidable (_ ∧ _))

/-- The second half of a surrogate pair. -/
def IsLowSurrogate (unit : ℕ) : Prop := 0xdc00 ≤ unit ∧ unit < 0xe000

/-- Whether a unit is a low surrogate can be decided. -/
instance IsLowSurrogate.decidable (unit : ℕ) : Decidable (IsLowSurrogate unit) :=
  inferInstanceAs (Decidable (_ ∧ _))

/-- The code unit of an escape at the start of a text. -/
def escapedUnit? : List Char → Option ℕ
  | '\\' :: 'u' :: rest => codeUnit? rest
  | _ => none

/-- The character of `\u` and what follows it, and how much of that belongs to it. A surrogate
without its other half is the replacement character. -/
def unicodeEscape (text : List Char) : Char × ℕ :=
  match codeUnit? text with
  | none => ('\ufffd', 0)
  | some unit =>
    if IsHighSurrogate unit ∨ IsLowSurrogate unit then
      match escapedUnit? (text.drop 4) with
      | some low =>
        if IsHighSurrogate unit ∧ IsLowSurrogate low then
          (Char.ofNat (0x10000 + (unit - 0xd800) * 0x400 + (low - 0xdc00)), 10)
        else ('\ufffd', 4)
      | none => ('\ufffd', 4)
    else (Char.ofNat unit, 4)

/-- The character of an escape of one letter. -/
def letterEscape (letter : Char) : Char :=
  if letter = 'b' then '\x08'
  else if letter = 'f' then '\x0c'
  else if letter = 'n' then '\n'
  else if letter = 'r' then '\r'
  else if letter = 't' then '\t'
  else letter

/-- What a text in quotes is, of which the first `skip` characters belong to the escape before. -/
def unquoteFrom : ℕ → List Char → List Char
  | _, [] => []
  | skip + 1, _ :: rest => unquoteFrom skip rest
  | 0, c :: rest =>
    if c = '\\' then
      match rest.head? with
      | some 'u' =>
        (unicodeEscape rest.tail).1 :: unquoteFrom ((unicodeEscape rest.tail).2 + 1) rest
      | some letter => letterEscape letter :: unquoteFrom 1 rest
      | none => []
    else c :: unquoteFrom 0 rest

/-- `unquote`, without the quotes. -/
def unquote (raw : List Char) : String := String.ofList (unquoteFrom 0 raw)

/-- A character in quotes, as `appendString` writes it. -/
def quotedChar (c : Char) : List Char :=
  if c = '"' ∨ c = '\\' then ['\\', c]
  else if c = '\x08' then ['\\', 'b']
  else if c = '\x0c' then ['\\', 'f']
  else if c = '\n' then ['\\', 'n']
  else if c = '\r' then ['\\', 'r']
  else if c = '\t' then ['\\', 't']
  else if c.toNat < 32 ∨ c ∈ ['<', '>', '&', '\u2028', '\u2029'] then
    '\\' :: 'u' :: hexDigits 4 c.toNat
  else [c]

/-- A text in quotes. -/
def quotedText (cs : List Char) : List Char := '"' :: (cs.flatMap quotedChar ++ ['"'])

/-- The digits below sixteen are hexadecimal. -/
theorem isJsonHex_digitChar {d : ℕ} (h : d < 16) : isJsonHex (Nat.digitChar d) = true := by
  interval_cases d <;> rfl

/-- A number in four hexadecimal digits. -/
theorem hexDigits_four (n : ℕ) : ∃ w x y z, hexDigits 4 n = [w, x, y, z] ∧
    ∀ c ∈ [w, x, y, z], isJsonHex c = true := by
  refine ⟨_, _, _, _, rfl, fun c hc => ?_⟩
  obtain ⟨d, hd, rfl⟩ := mem_hexDigits (w := 4) (n := n) hc
  exact isJsonHex_digitChar hd

/-- A quoted character is a piece of a string. -/
theorem stringPiece_quotedChar (c : Char) : StringPiece (quotedChar c) := by
  unfold quotedChar
  split_ifs with h₁ h₂ h₃ h₄ h₅ h₆ h₇
  · rcases h₁ with rfl | rfl <;> exact .escape (by decide)
  · exact .escape (by decide)
  · exact .escape (by decide)
  · exact .escape (by decide)
  · exact .escape (by decide)
  · exact .escape (by decide)
  · obtain ⟨w, x, y, z, hdigits, hhex⟩ := hexDigits_four c.toNat
    rw [hdigits]
    exact .unicode hhex
  · simp only [not_or] at h₁ h₇
    exact .plain h₁.1 h₁.2 (not_lt.mp h₇.1)

/-- A quoted character is read back. -/
theorem unquoteFrom_quotedChar (c : Char) (rest : List Char) :
    unquoteFrom 0 (quotedChar c ++ rest) = c :: unquoteFrom 0 rest := by
  unfold quotedChar
  split_ifs with h₁ h₂ h₃ h₄ h₅ h₆ h₇
  · rcases h₁ with rfl | rfl <;> rfl
  · rw [h₂]; rfl
  · rw [h₃]; rfl
  · rw [h₄]; rfl
  · rw [h₅]; rfl
  · rw [h₆]; rfl
  -- The escaped characters are small and no surrogates, so that one unit is enough.
  · have hsmall : c.toNat < 16 ^ 4 ∧ ¬IsHighSurrogate c.toNat ∧ ¬IsLowSurrogate c.toNat := by
      unfold IsHighSurrogate IsLowSurrogate
      rcases h₇ with h₇ | h₇
      · omega
      · simp only [List.mem_cons, List.not_mem_nil, or_false] at h₇
        rcases h₇ with rfl | rfl | rfl | rfl | rfl <;> decide
    obtain ⟨hlt, hhigh, hlow⟩ := hsmall
    -- Four digits write the unit, and four are read.
    have hunit : codeUnit? (hexDigits 4 c.toNat ++ rest) = some c.toNat := by
      have hlength : (hexDigits 4 c.toNat).length = 4 := length_hexDigits 4 _
      rw [codeUnit?, if_pos (by rw [List.length_append]; omega), List.take_append_of_le_length
        hlength.ge, List.take_of_length_le hlength.le, ofHexDigits?_hexDigits,
        Nat.mod_eq_of_lt hlt]
    have hescape : unicodeEscape (hexDigits 4 c.toNat ++ rest) = (c, 4) := by
      rw [unicodeEscape, hunit]
      simp only
      rw [if_neg (not_or.mpr ⟨hhigh, hlow⟩), Char.ofNat_toNat]
    obtain ⟨w, x, y, z, hdigits, -⟩ := hexDigits_four c.toNat
    rw [hdigits] at hescape ⊢
    show (unicodeEscape ([w, x, y, z] ++ rest)).1 ::
      unquoteFrom ((unicodeEscape ([w, x, y, z] ++ rest)).2 + 1)
        ('u' :: w :: x :: y :: z :: rest) = _
    rw [hescape]
    rfl
  · simp only [not_or] at h₁
    rw [List.singleton_append, unquoteFrom, if_neg h₁.2]

/-- A quoted text is read back. -/
theorem unquote_quoted (s : String) : unquote (s.toList.flatMap quotedChar) = s := by
  have hread : ∀ cs : List Char, unquoteFrom 0 (cs.flatMap quotedChar) = cs := by
    intro cs
    induction cs with
    | nil => rfl
    | cons c cs ih => rw [List.flatMap_cons, unquoteFrom_quotedChar, ih]
  rw [unquote, hread, String.ofList_toList]

/-! ## Members -/

/-- What stands up to the closing quote, and what follows it. -/
def rawString : Bool → List Char → List Char × List Char
  | _, [] => ([], [])
  | true, c :: rest => (c :: (rawString false rest).1, (rawString false rest).2)
  | false, c :: rest =>
    if c = '"' then ([], rest)
    else (c :: (rawString (c = '\\') rest).1, (rawString (c = '\\') rest).2)

/-- The value of a member: the raw text of a string, a literal, or an object or an array. -/
inductive JsonMember where
  | string (raw : List Char)
  | literal (text : List Char)
  | nested
deriving DecidableEq

/-- A character of a number, of `true`, `false` or `null`. -/
def isLiteralChar (c : Char) : Bool := c ≠ ',' && c ≠ '\x7d' && c ≠ ']' && !isJsonSpace c

/-- What follows an object or an array inside of which `depth` others are open. -/
def behindNested : Bool → Bool → ℕ → List Char → List Char
  | _, _, _, [] => []
  | _, true, depth, _ :: rest => behindNested true false depth rest
  | true, false, depth, c :: rest => behindNested (c ≠ '"') (c = '\\') depth rest
  | false, false, depth, c :: rest =>
    if c = '"' then behindNested true false depth rest
    else if c = '\x7b' ∨ c = '[' then behindNested false false (depth + 1) rest
    else if c = '\x7d' ∨ c = ']' then
      match depth with
      | 0 => rest
      | depth + 1 => behindNested false false depth rest
    else behindNested false false depth rest

/-- A value and what follows it. -/
def readMember : List Char → JsonMember × List Char
  | [] => (.literal [], [])
  | c :: rest =>
    if c = '"' then (.string (rawString false rest).1, (rawString false rest).2)
    else if c = '\x7b' ∨ c = '[' then (.nested, behindNested false false 0 rest)
    else (.literal ((c :: rest).takeWhile isLiteralChar), (c :: rest).dropWhile isLiteralChar)

/-- The text without the blanks in front. -/
def skipBlanks (text : List Char) : List Char := text.dropWhile isJsonSpace

/-- The members of an object, at most as many as there is fuel. -/
def readMembers : ℕ → List Char → List (List Char × JsonMember)
  | 0, _ => []
  | fuel + 1, text =>
    match skipBlanks text with
    | '"' :: name =>
      let value := readMember (skipBlanks (skipBlanks (rawString false name).2).tail)
      ((rawString false name).1, value.1) ::
        match skipBlanks value.2 with
        | ',' :: rest => readMembers fuel rest
        | _ => []
    | _ => []

/-- The members that `json.Unmarshal` decodes into a struct: those of an object, and none of `null`;
other values and texts that are no JSON are errors. -/
def membersOf (text : List Char) : Option (List (List Char × JsonMember)) :=
  if jsonValid text = false then none
  else match skipBlanks text with
    | '\x7b' :: rest => some (readMembers rest.length rest)
    | 'n' :: _ => some []
    | _ => none

/-! ## Reading what was written -/

/-- A text is that of a string or of an integer, and what is read of it. -/
inductive ScalarText : List Char → JsonMember → Prop
  | string {pieces : List (List Char)} (h : ∀ p ∈ pieces, StringPiece p) :
      ScalarText ('"' :: (pieces.flatten ++ ['"'])) (.string pieces.flatten)
  | number (n : ℤ) : ScalarText (decimal n).toList (.literal (decimal n).toList)

/-- A value that is written: its text and what is read of it. -/
structure JsonScalar where
  text : List Char
  read : JsonMember
  isScalar : ScalarText text read

/-- A string. -/
def JsonScalar.string (cs : List Char) : JsonScalar where
  text := quotedText cs
  read := .string (cs.flatMap quotedChar)
  isScalar := .string fun p hp => by
    obtain ⟨c, -, rfl⟩ := List.mem_map.mp hp
    exact stringPiece_quotedChar c

/-- An integer. -/
def JsonScalar.number (n : ℤ) : JsonScalar where
  text := (decimal n).toList
  read := .literal (decimal n).toList
  isScalar := .number n

/-- A text in quotes that needs no escape. -/
def JsonScalar.plain (text : List Char)
    (h : ∀ c ∈ text, c ≠ '"' ∧ c ≠ '\\' ∧ 32 ≤ c.toNat) : JsonScalar where
  text := '"' :: (text ++ ['"'])
  read := .string text
  isScalar := by
    have hpieces : (text.map fun c => [c]).flatten = text := by
      induction text with
      | nil => rfl
      | cons c text ih =>
        exact congrArg (c :: ·) (ih fun d hd => h d (List.mem_cons_of_mem c hd))
    have hscalar := @ScalarText.string (text.map fun c => [c]) fun p hp => by
      obtain ⟨c, hc, rfl⟩ := List.mem_map.mp hp
      exact .plain (h c hc).1 (h c hc).2.1 (h c hc).2.2
    rwa [hpieces] at hscalar

/-- A field with its name. -/
def fieldText (f : String × JsonScalar) : List Char := quotedText f.1.toList ++ ':' :: f.2.text

/-- The fields with commas between them, and the brace behind them. -/
def fieldsText : List (String × JsonScalar) → List Char
  | [] => ['\x7d']
  | [f] => fieldText f ++ ['\x7d']
  | f :: g :: rest => fieldText f ++ ',' :: fieldsText (g :: rest)

/-- `json.Marshal` of a struct with these fields. -/
def objectText (fields : List (String × JsonScalar)) : List Char := '\x7b' :: fieldsText fields

section Values

variable {open' : List ParseState} {p : ParseState} {text rest : List Char} {m : JsonMember}
  {c : Char}

/-- A hexadecimal digit ends no string and begins no escape. -/
theorem ne_quote_of_hex (h : isJsonHex c = true) : c ≠ '"' ∧ c ≠ '\\' := by
  constructor
  · rintro rfl
    cases h
  · rintro rfl
    cases h

/-- A piece is read as it is, and then the rest. -/
theorem rawString_piece {piece : List Char} (h : StringPiece piece) (more : List Char) :
    rawString false (piece ++ more) =
      (piece ++ (rawString false more).1, (rawString false more).2) := by
  have hplain : ∀ {c : Char} (more : List Char), c ≠ '"' → c ≠ '\\' →
      rawString false (c :: more) = (c :: (rawString false more).1, (rawString false more).2) := by
    intro c more hquote hbackslash
    rw [rawString, if_neg hquote, decide_eq_false hbackslash]
  cases h with
  | plain quote backslash control => exact hplain more quote backslash
  | escape mem => rfl
  | @unicode w x y z hex =>
    have hhex : ∀ c ∈ [w, x, y, z], c ≠ '"' ∧ c ≠ '\\' := fun c hc => ne_quote_of_hex (hex c hc)
    simp only [List.mem_cons, List.not_mem_nil, or_false, forall_eq_or_imp, forall_eq] at hhex
    obtain ⟨hw, hx, hy, hz⟩ := hhex
    show ((_ :: (_ :: (rawString false (w :: x :: y :: z :: more)).1) : List Char),
      (rawString false (w :: x :: y :: z :: more)).2) = _
    rw [hplain _ hw.1 hw.2, hplain _ hx.1 hx.2, hplain _ hy.1 hy.2, hplain _ hz.1 hz.2]
    rfl

/-- A string ends at the first quote behind its pieces. -/
theorem rawString_pieces {pieces : List (List Char)} (h : ∀ p ∈ pieces, StringPiece p)
    (rest : List Char) :
    rawString false (pieces.flatten ++ '"' :: rest) = (pieces.flatten, rest) := by
  induction pieces with
  | nil => rfl
  | cons p ps ih =>
    rw [List.flatten_cons, List.append_assoc, rawString_piece (h p List.mem_cons_self),
      ih fun q hq => h q (List.mem_cons_of_mem p hq)]

/-- A quoted text is read as it is, up to the closing quote. -/
theorem rawString_quoted (s : String) (rest : List Char) :
    rawString false (s.toList.flatMap quotedChar ++ '"' :: rest) =
      (s.toList.flatMap quotedChar, rest) :=
  @rawString_pieces (s.toList.map quotedChar) (fun p hp => by
    obtain ⟨c, -, rfl⟩ := List.mem_map.mp hp
    exact stringPiece_quotedChar c) rest

/-- The text of an integer: a sign and digits, of which the first is zero only when it is alone. -/
theorem decimal_shape (n : ℤ) : ∃ sign digits : List Char, (decimal n).toList = sign ++ digits ∧
    (sign = [] ∨ sign = ['-']) ∧ digits ≠ [] ∧ (∀ c ∈ digits, c.isDigit = true) ∧
    (digits = ['0'] ∨ digits.head? ≠ some '0') := by
  have hdigits : ∀ k : ℕ, Nat.toDigits 10 k ≠ [] ∧
      (∀ c ∈ Nat.toDigits 10 k, c.isDigit = true) ∧
      (Nat.toDigits 10 k = ['0'] ∨ (Nat.toDigits 10 k).head? ≠ some '0') := by
    -- The digits of a number are its only ones without a leading zero.
    intro k
    have hall : ∀ c ∈ Nat.toDigits 10 k, c.isDigit = true := fun c hc =>
      Nat.isDigit_of_mem_toDigits (by decide) (by decide) hc
    refine ⟨Nat.toDigits_ne_nil, hall, ?_⟩
    rw [or_iff_not_imp_right, not_not]
    intro hhead
    obtain ⟨cs, hcs⟩ := List.head?_eq_some_iff.mp hhead
    rcases cs with _ | ⟨c, cs⟩
    · exact hcs
    · -- Behind a zero there are too few digits for a text of this length.
      have hvalue : Nat.ofDigitChars 10 (Nat.toDigits 10 k) 0 = k := Nat.ofDigitChars_ten_toDigits
      rw [hcs, Nat.ofDigitChars_cons] at hvalue
      have hlt := ofDigitChars_lt fun d hd => hall d (hcs ▸ List.mem_cons_of_mem _ hd)
      have hshort := (Nat.length_toDigits_le_iff (b := 10) (k := (c :: cs).length) (n := k)
        (by decide) (by simp)).mpr (hvalue ▸ hlt)
      rw [hcs] at hshort
      simp at hshort
  rcases n with k | k
  · exact ⟨[], _, String.toList_ofList, .inl rfl, hdigits k⟩
  · exact ⟨['-'], _, String.toList_ofList, .inr rfl, hdigits (k + 1)⟩

/-- A digit other than zero. -/
theorem digit_cases (h : c.isDigit = true) (hzero : c ≠ '0') :
    ∃ d < 9, c = Char.ofNat ('1'.toNat + d) := by
  have hlow := digit_toNat h
  simp only [Char.isDigit, Bool.and_eq_true, decide_eq_true_eq] at h
  have hhigh : c.toNat ≤ 57 := h.2
  have hne : c.toNat ≠ 48 := fun heq => hzero (Char.toNat_inj.mp heq)
  change 48 ≤ c.toNat at hlow
  refine ⟨c.toNat - 49, by omega, ?_⟩
  rw [show '1'.toNat + (c.toNat - 49) = c.toNat from by change 49 + (c.toNat - 49) = _; omega,
    Char.ofNat_toNat]

/-- What ends a value of an object. -/
def IsFieldEnd (c : Char) : Prop := c = ',' ∨ c = '\x7d'

namespace Scanner

/-- States with the same step accept the same. -/
theorem accepts_congr {s t : Scanner} (h : s.step c = t.step c) :
    s.accepts (c :: rest) = t.accepts (c :: rest) := by
  rw [accepts, accepts, h]

/-- Behind its digits a number ends. -/
theorem accepts_digits {digits : List Char} (h : ∀ d ∈ digits, d.isDigit = true)
    (hc : IsFieldEnd c) : (⟨.nonzero, p :: open'⟩ : Scanner).accepts (digits ++ c :: rest) =
      (⟨.endValue, p :: open'⟩ : Scanner).accepts (c :: rest) := by
  induction digits with
  | nil => exact accepts_congr (by rcases hc with rfl | rfl <;> rfl)
  | cons d digits ih =>
    have hdigit : step ⟨.nonzero, p :: open'⟩ d = some ⟨.nonzero, p :: open'⟩ :=
      if_pos (h d List.mem_cons_self)
    rw [List.cons_append, accepts_cons hdigit]
    exact ih fun e he => h e (List.mem_cons_of_mem d he)

/-- A field may end after a zero. -/
theorem accepts_zero (hc : IsFieldEnd c) :
    (⟨.zero, p :: open'⟩ : Scanner).accepts (c :: rest) =
      (⟨.endValue, p :: open'⟩ : Scanner).accepts (c :: rest) :=
  accepts_congr (by rcases hc with rfl | rfl <;> rfl)

/-- A written value is a value. -/
theorem accepts_scalar (h : ScalarText text m) (hc : IsFieldEnd c) :
    (⟨.beginValue, p :: open'⟩ : Scanner).accepts (text ++ c :: rest) =
      (⟨.endValue, p :: open'⟩ : Scanner).accepts (c :: rest) := by
  cases h with
  | @string pieces hpieces =>
    rw [List.cons_append, List.append_assoc]
    exact accepts_string hpieces
  | number n =>
    obtain ⟨sign, digits, htext, hsign, hne, hdigits, hlead⟩ := decimal_shape n
    obtain ⟨d, ds, rfl⟩ := List.exists_cons_of_ne_nil hne
    have htail : ∀ e ∈ ds, e.isDigit = true := fun e he => hdigits e (List.mem_cons_of_mem d he)
    rw [htext, List.append_assoc]
    -- Behind a zero the scanner accepts no further digit, and there is none.
    by_cases hzero : d = '0'
    · obtain rfl : ds = [] := by
        rcases hlead with hall | hhead
        · exact (List.cons.inj hall).2
        · exact absurd (congrArg some hzero) hhead
      subst hzero
      rcases hsign with rfl | rfl
      · exact (accepts_cons rfl _).trans (accepts_zero hc)
      · exact (accepts_cons rfl _).trans ((accepts_cons rfl _).trans (accepts_zero hc))
    · obtain ⟨k, hk, hd⟩ := digit_cases (hdigits d List.mem_cons_self) hzero
      have hfirst : ∀ s : ScanState, s = .beginValue ∨ s = .neg →
          step ⟨s, p :: open'⟩ d = some ⟨.nonzero, p :: open'⟩ := by
        rintro s (rfl | rfl) <;> subst hd <;> interval_cases k <;> rfl
      rcases hsign with rfl | rfl
      · exact (accepts_cons (hfirst _ (.inl rfl)) _).trans (accepts_digits htail hc)
      · exact (accepts_cons rfl _).trans
          ((accepts_cons (hfirst _ (.inr rfl)) _).trans (accepts_digits htail hc))

/-- A written field, up to what ends its value. -/
theorem accepts_field (f : String × JsonScalar) {start : ScanState}
    (hstart : start = .beginString ∨ start = .beginStringOrEmpty) (hc : IsFieldEnd c) :
    (⟨start, .objectKey :: open'⟩ : Scanner).accepts (fieldText f ++ c :: rest) =
      (⟨.endValue, .objectValue :: open'⟩ : Scanner).accepts (c :: rest) := by
  have hname := @accepts_name open' (f.2.text ++ c :: rest) (f.1.toList.map quotedChar)
    (fun p hp => by
      obtain ⟨d, -, rfl⟩ := List.mem_map.mp hp
      exact stringPiece_quotedChar d) start hstart
  have hsplit : fieldText f ++ c :: rest = '"' :: ((f.1.toList.map quotedChar).flatten ++
      '"' :: ':' :: (f.2.text ++ c :: rest)) := by
    simp [fieldText, quotedText, List.flatMap]
  rw [hsplit, hname]
  exact accepts_scalar f.2.isScalar hc

end Scanner

/-- A written object is JSON. -/
theorem jsonValid_objectText (fields : List (String × JsonScalar)) :
    jsonValid (objectText fields) = true := by
  have hfields : ∀ (f : String × JsonScalar) (fs : List (String × JsonScalar)) (start : ScanState),
      (start = .beginString ∨ start = .beginStringOrEmpty) →
      (⟨start, [.objectKey]⟩ : Scanner).accepts (fieldsText (f :: fs)) = true := by
    intro f fs
    induction fs generalizing f with
    | nil => exact fun start hstart => (Scanner.accepts_field f hstart (.inr rfl)).trans rfl
    | cons g gs ih =>
      intro start hstart
      rw [fieldsText, Scanner.accepts_field f hstart (.inl rfl)]
      exact (Scanner.accepts_cons rfl _).trans (ih g .beginString (.inl rfl))
  unfold jsonValid objectText
  rw [Scanner.accepts_cons (show Scanner.step ⟨.beginValue, []⟩ '\x7b' =
    some ⟨.beginStringOrEmpty, [.objectKey]⟩ from rfl)]
  rcases fields with _ | ⟨f, fs⟩
  · rfl
  · exact hfields f fs _ (.inr rfl)

/-- Digits and a minus sign are part of a literal. -/
theorem isLiteralChar_digit (h : c.isDigit = true ∨ c = '-') : isLiteralChar c = true := by
  by_cases hzero : c = '0' ∨ c = '-'
  · rcases hzero with rfl | rfl <;> rfl
  · rw [not_or] at hzero
    obtain ⟨k, hk, rfl⟩ := digit_cases (h.resolve_right hzero.2) hzero.1
    interval_cases k <;> rfl

/-- A written value is read, up to what ends it. -/
theorem readMember_scalar (h : ScalarText text m) (hc : IsFieldEnd c) :
    readMember (skipBlanks (text ++ c :: rest)) = (m, c :: rest) := by
  cases h with
  | @string pieces hpieces =>
    show ((JsonMember.string (rawString false (pieces.flatten ++ ['"'] ++ c :: rest)).1,
      (rawString false (pieces.flatten ++ ['"'] ++ c :: rest)).2) : JsonMember × List Char) = _
    rw [List.append_assoc, List.singleton_append, rawString_pieces hpieces]
  | number n =>
    obtain ⟨sign, digits, htext, hsign, hne, hdigits, -⟩ := decimal_shape n
    -- A number has digits and at most a minus.
    have hall : ∀ d ∈ (decimal n).toList, d.isDigit = true ∨ d = '-' := by
      intro d hd
      rw [htext] at hd
      rcases List.mem_append.mp hd with hd | hd
      · rcases hsign with rfl | rfl
        · cases hd
        · exact .inr (List.mem_singleton.mp hd)
      · exact .inl (hdigits d hd)
    have hliteral : ∀ d ∈ (decimal n).toList, isLiteralChar d = true := fun d hd =>
      isLiteralChar_digit (hall d hd)
    obtain ⟨d, ds, hcons⟩ : ∃ d ds, (decimal n).toList = d :: ds :=
      List.exists_cons_of_ne_nil (by rw [htext]; exact List.append_ne_nil_of_right_ne_nil _ hne)
    have hend : isLiteralChar c = false := by rcases hc with rfl | rfl <;> rfl
    -- The literal ends where the field ends.
    have htake : ((decimal n).toList ++ c :: rest).takeWhile isLiteralChar =
        (decimal n).toList := by
      rw [List.takeWhile_append_of_pos hliteral, List.takeWhile_cons_of_neg (by simp [hend]),
        List.append_nil]
    have hdrop : ((decimal n).toList ++ c :: rest).dropWhile isLiteralChar = c :: rest := by
      rw [List.dropWhile_append_of_pos hliteral, List.dropWhile_cons_of_neg (by simp [hend])]
    have hfirst := hliteral d (by rw [hcons]; exact List.mem_cons_self)
    -- No character of a number starts another kind of value.
    have hplain : d ≠ '"' ∧ ¬(d = '\x7b' ∨ d = '[') ∧ isJsonSpace d = false := by
      have hdigit := hall d (by rw [hcons]; exact List.mem_cons_self)
      by_cases hzero : d = '0' ∨ d = '-'
      · rcases hzero with rfl | rfl <;> decide
      · rw [not_or] at hzero
        obtain ⟨k, hk, rfl⟩ := digit_cases (hdigit.resolve_right hzero.2) hzero.1
        interval_cases k <;> decide
    obtain ⟨hquote, hopen, hspace⟩ := hplain
    have hskip : skipBlanks ((decimal n).toList ++ c :: rest) =
        (decimal n).toList ++ c :: rest := by
      rw [hcons, List.cons_append]
      exact List.dropWhile_cons_of_neg (by rw [hspace]; decide)
    rw [hskip]
    rw [hcons, List.cons_append] at htake hdrop ⊢
    rw [readMember, if_neg hquote, if_neg hopen, htake, hdrop]

/-- What is read of a field that was written. -/
def fieldRead (f : String × JsonScalar) : List Char × JsonMember :=
  (f.1.toList.flatMap quotedChar, f.2.read)

/-- A written field is read, up to what ends its value. -/
theorem readMembers_field (f : String × JsonScalar) (fuel : ℕ) (hc : IsFieldEnd c) :
    readMembers (fuel + 1) (fieldText f ++ c :: rest) = fieldRead f ::
      match (c :: rest : List Char) with
      | ',' :: rest => readMembers fuel rest
      | _ => [] := by
  have hsplit : skipBlanks (fieldText f ++ c :: rest) = '"' :: (f.1.toList.flatMap quotedChar ++
      '"' :: ':' :: (f.2.text ++ c :: rest)) := by
    simp [fieldText, quotedText, skipBlanks, isJsonSpace]
  rw [readMembers, hsplit]
  simp only
  rw [rawString_quoted]
  have hcolon : skipBlanks (':' :: (f.2.text ++ c :: rest)) = ':' :: (f.2.text ++ c :: rest) :=
    List.dropWhile_cons_of_neg (by decide)
  have hend : skipBlanks (c :: rest) = c :: rest :=
    List.dropWhile_cons_of_neg (by rcases hc with rfl | rfl <;> decide)
  simp only [hcolon, List.tail_cons]
  rw [readMember_scalar f.2.isScalar hc]
  simp only [hend]
  rfl

/-- The fields of a written object are read back, in their order. -/
theorem membersOf_objectText (fields : List (String × JsonScalar)) :
    membersOf (objectText fields) = some (fields.map fieldRead) := by
  -- The induction is on the fields; each costs one unit of fuel.
  have hfields : ∀ (fs : List (String × JsonScalar)) (fuel : ℕ), fs.length ≤ fuel →
      readMembers fuel (fieldsText fs) = fs.map fieldRead := by
    intro fs
    induction fs with
    | nil =>
      rintro (_ | fuel) -
      · rfl
      · rfl
    | cons f fs ih =>
      rintro (_ | fuel) hfuel
      · cases hfuel
      · rcases fs with _ | ⟨g, gs⟩
        · exact readMembers_field f fuel (.inr rfl)
        · rw [fieldsText, readMembers_field f fuel (.inl rfl), List.map_cons,
            ← ih fuel (Nat.le_of_succ_le_succ hfuel)]
          rfl
  -- Every field has a character at least, so that the text gives enough fuel.
  have hlength : ∀ fs : List (String × JsonScalar), fs.length ≤ (fieldsText fs).length := by
    intro fs
    induction fs with
    | nil => exact Nat.zero_le _
    | cons f fs ih =>
      rcases fs with _ | ⟨g, gs⟩
      · simp [fieldsText]
      · simp only [fieldsText, List.length_append, List.length_cons] at ih ⊢
        omega
  rw [membersOf, if_neg (by rw [jsonValid_objectText]; decide)]
  exact congrArg some (hfields fields _ (hlength fields))

end Values

end LedgerSync.Lib
