import LedgerSync.MoneyParsing
import LedgerSync.TransferReceipts

/-!
# Codecs of amounts

The minor units of an amount are read from text in three places: `ParseMinor` reads those of a
funding request, `parseFinancialInt` those of a transfer, and the browser has a codec of its own.
The second accepts canonical texts only (`parseFinancialInt_iff`); the first accepts a sign too, so
that two texts are one request (`parseMinor_canonical_iff`). The browser reads and writes the
amounts that the server reads and writes (`browser_money_agrees`).
-/

namespace LedgerSync

open Lib

/-! ## Minor units of requests -/

/-- `ParseMinor`. -/
def parseMinor (value : String) : Option Bigint :=
  if value = "" ∨ trimSpace value ≠ value ∨
      (1 < value.utf8ByteSize ∧ value.toList.head? = some '0') then none
  else ((parseInt64 value).bind Bigint.ofInt?).filter fun parsed => 0 ≤ (parsed : ℤ)

section Minor

variable {s : String} {b : Bigint} {allowZero : Bool}

/-- Digits that are one zero or do not start with one are a canonical text. -/
theorem toDigits_of_canonical {ds : List Char} (hne : ds ≠ [])
    (hd : ∀ c ∈ ds, c.isDigit = true) (hhead : 1 < ds.length → ds.head? ≠ some '0') :
    Nat.toDigits 10 (Nat.ofDigitChars 10 ds 0) = ds := by
  obtain ⟨c, cs, rfl⟩ := List.exists_cons_of_ne_nil hne
  by_cases hc : c = '0'
  · have hcs : cs = [] := by
      by_contra hcs
      have hpos : 0 < cs.length := List.length_pos_iff.mpr hcs
      exact hhead (by rw [List.length_cons]; omega) (congrArg some hc)
    rw [hc, hcs]
    rfl
  · exact toDigits_ofDigitChars hd hc

/-- Digits are ASCII. -/
theorem digit_ascii {c : Char} (h : c.isDigit = true) : c.toNat < 128 := by
  obtain ⟨hlo, hhi⟩ := Money.digit_le h
  have hzero : '0'.toNat = 48 := rfl
  omega

/-- A text without a sign is read as its digits. -/
theorem parseInt64_unsigned (hminus : s.toList.head? ≠ some '-') (hplus : s.toList.head? ≠ some '+') :
    parseInt64 s = (parseDigits s.toList).bind fun n => if n < 2 ^ 63 then some (n : ℤ) else none := by
  unfold parseInt64
  split
  · next hs => exact absurd (by rw [hs]; rfl) hminus
  · next hs => exact absurd (by rw [hs]; rfl) hplus
  · rfl

/-- Nothing is trimmed from a sign and the digits behind it. -/
theorem trimSpace_signed {sign : Char} {ds : List Char} (hs : s.toList = sign :: ds)
    (hsign : isSpace sign = false) (hne : ds ≠ []) (hd : ∀ c ∈ ds, c.isDigit = true) :
    trimSpace s = s := by
  refine trimSpace_of_ends (fun c hc => ?_) fun c hc => ?_
  · rw [hs, List.head?_cons] at hc
    exact Option.some.inj hc ▸ hsign
  · rw [hs, List.getLast?_cons_of_ne_nil hne] at hc
    exact Money.isSpace_of_digit (hd c (List.mem_of_getLast? hc))

/-- The texts that `parseFinancialInt` accepts are the canonical ones. -/
theorem parseFinancialInt_iff : parseFinancialInt s allowZero = some b ↔
    s = b.text ∧ 0 ≤ (b : ℤ) ∧ (allowZero = true ∨ (b : ℤ) ≠ 0) := by
  constructor
  · intro h
    refine ⟨?_, parseFinancialInt_range h⟩
    unfold parseFinancialInt at h
    split_ifs at h with hshape hdigits
    rw [not_or, not_or] at hshape
    obtain ⟨-, hzero, -⟩ := hshape
    -- All characters are digits, so that no sign stands in front.
    have hunsigned : ∀ sign : Char, sign.isDigit = false → s.toList.head? ≠ some sign := by
      intro sign hsign hhead
      rw [hdigits sign (List.mem_of_head? hhead)] at hsign
      cases hsign
    obtain ⟨z, hz, hb⟩ := Option.bind_eq_some_iff.mp (Option.filter_eq_some_iff.mp h).1
    rw [parseInt64_unsigned (hunsigned '-' rfl) (hunsigned '+' rfl)] at hz
    obtain ⟨n, hn, hfits⟩ := Option.bind_eq_some_iff.mp hz
    obtain ⟨hne, hd, rfl⟩ := parseDigits_eq_some.mp hn
    split_ifs at hfits
    have hvalue : (b : ℤ) = Nat.ofDigitChars 10 s.toList 0 := by
      rw [Bigint.ofInt?_eq_some.mp hb, ← Option.some.inj hfits]
    have hbytes : s.utf8ByteSize = s.toList.length :=
      utf8ByteSize_of_ascii fun c hc => digit_ascii (hd c hc)
    -- A leading zero stands alone, so that the text is the canonical one of its value.
    have hcanonical : 1 < s.toList.length → s.toList.head? ≠ some '0' := by
      rw [← hbytes]
      exact fun hlong hhead => hzero ⟨hlong, hhead⟩
    rw [Bigint.text, hvalue, decimal_natCast, toDigits_of_canonical hne hd hcanonical,
      String.ofList_toList]
  · rintro ⟨rfl, hnonneg, hzero⟩
    exact parseFinancialInt_text hnonneg hzero

/-- A text with a sign that `ParseMinor` accepts: a plus sign and a number that fits, or a minus
sign and zeros. -/
def IsSignedMinor (s : String) : Prop :=
  (∃ ds n, s.toList = '+' :: ds ∧ parseDigits ds = some n ∧ n < 2 ^ 63) ∨
    ∃ ds, s.toList = '-' :: ds ∧ parseDigits ds = some 0

/-- The guards of `ParseMinor` let a sign before digits pass. -/
theorem parseMinor_signed {sign : Char} {ds : List Char} {n : ℕ} (hs : s.toList = sign :: ds)
    (hsign : isSpace sign = false) (hzero : sign ≠ '0') (hn : parseDigits ds = some n) :
    parseMinor s =
      ((parseInt64 s).bind Bigint.ofInt?).filter fun parsed : Bigint => 0 ≤ (parsed : ℤ) := by
  obtain ⟨hne, hd, -⟩ := parseDigits_eq_some.mp hn
  unfold parseMinor
  rw [if_neg]
  rintro (hempty | htrim | ⟨-, hhead⟩)
  · rw [hempty] at hs
    cases hs
  · exact htrim (trimSpace_signed hs hsign hne hd)
  · rw [hs, List.head?_cons] at hhead
    exact hzero (Option.some.inj hhead)

/-- Minor units in their form parse to a number that is not negative. -/
theorem parseMinor_of_isSignedMinor (h : IsSignedMinor s) :
    ∃ b, parseMinor s = some b ∧ 0 ≤ (b : ℤ) := by
  rcases h with ⟨ds, n, hs, hn, hlt⟩ | ⟨ds, hs, hn⟩
  · have hread : parseInt64 s = some (n : ℤ) := by
      simp only [parseInt64, hs, hn, Option.bind_some, if_pos hlt]
    have hfits : -2 ^ 63 ≤ (n : ℤ) ∧ (n : ℤ) < 2 ^ 63 := ⟨by omega, by exact_mod_cast hlt⟩
    have hof : Bigint.ofInt? (n : ℤ) = some ⟨n, hfits⟩ := Bigint.ofInt?_eq_some.mpr rfl
    refine ⟨⟨n, hfits⟩, ?_, Int.natCast_nonneg n⟩
    rw [parseMinor_signed hs (by decide) (by decide) hn, hread, Option.bind_some, hof,
      Option.filter_some]
    exact if_pos (decide_eq_true (Int.natCast_nonneg n))
  · have hread : parseInt64 s = some 0 := by
      simp only [parseInt64, hs, hn, Option.bind_some]
      rfl
    refine ⟨.zero, ?_, le_rfl⟩
    rw [parseMinor_signed hs (by decide) (by decide) hn, hread]
    rfl

/-- Where no sign comes in, the two readers agree. -/
theorem parseMinor_eq (h : ¬IsSignedMinor s) :
    parseMinor s = parseFinancialInt s true := by
  have hguards : ∀ p q r : Prop, (p ∨ q ∨ r) ↔ (p ∨ r ∨ q) := by tauto
  unfold parseMinor parseFinancialInt
  simp only [hguards (s = "") (trimSpace s ≠ s), true_or, and_true]
  by_cases hshape : s = "" ∨ (1 < s.utf8ByteSize ∧ s.toList.head? = some '0') ∨ trimSpace s ≠ s
  · rw [if_pos hshape, if_pos hshape]
  · rw [if_neg hshape, if_neg hshape]
    by_cases hdigits : ∀ digit ∈ s.toList, digit.isDigit = true
    · rw [if_neg (not_not.mpr hdigits)]
    · rw [if_pos hdigits, Option.filter_eq_none_iff]
      -- with another character than a digit, only a sign can be read, and then nothing is left
      intro b hb
      obtain ⟨z, hz, hbz⟩ := Option.bind_eq_some_iff.mp hb
      have hvalue : (b : ℤ) = z := Bigint.ofInt?_eq_some.mp hbz
      unfold parseInt64 at hz
      split at hz
      · next ds hs =>
        obtain ⟨n, hn, hfits⟩ := Option.bind_eq_some_iff.mp hz
        split_ifs at hfits
        have hne : n ≠ 0 := by
          rintro rfl
          exact h (.inr ⟨ds, hs, hn⟩)
        have hneg := Option.some.inj hfits
        rw [decide_eq_true_eq]
        omega
      · next ds hs =>
        obtain ⟨n, hn, hfits⟩ := Option.bind_eq_some_iff.mp hz
        split_ifs at hfits with hlt
        exact absurd (.inl ⟨ds, n, hs, hn, hlt⟩) h
      · obtain ⟨n, hn, -⟩ := Option.bind_eq_some_iff.mp hz
        exact absurd (parseDigits_eq_some.mp hn).2.1 hdigits

end Minor

/-- **Minor units are canonical without a sign.** What `ParseMinor` accepts is the decimal text of
its value, and it agrees with `parseFinancialInt` on positive values, if and only if the text is not
one of the signed ones. -/
theorem parseMinor_canonical_iff (s : String) :
    ((∀ b, parseMinor s = some b → b.text = s) ∧
      ∀ (b : Bigint) allowZero, 0 < (b : ℤ) →
        (parseMinor s = some b ↔ parseFinancialInt s allowZero = some b)) ↔
      ¬IsSignedMinor s := by
  constructor
  · rintro ⟨hcanonical, -⟩ hsigned
    obtain ⟨b, hb, hnonneg⟩ := parseMinor_of_isSignedMinor hsigned
    have hdigits : ∀ c ∈ s.toList, c.isDigit = true := by
      obtain ⟨n, hn⟩ := Int.eq_ofNat_of_zero_le hnonneg
      rw [← hcanonical b hb, Bigint.text, hn, decimal_natCast, String.toList_ofList]
      exact fun c hc => Nat.isDigit_of_mem_toDigits (by decide) (by decide) hc
    rcases hsigned with ⟨ds, n, hs, -⟩ | ⟨ds, hs, -⟩
    all_goals
      rw [hs] at hdigits
      exact absurd (hdigits _ List.mem_cons_self) (by decide)
  · intro hsigned
    rw [parseMinor_eq hsigned]
    refine ⟨fun b hb => (parseFinancialInt_iff.mp hb).1.symm, fun b allowZero hpos => ?_⟩
    rw [parseFinancialInt_iff, parseFinancialInt_iff]
    exact and_congr_right' ⟨fun h => ⟨h.1, .inr hpos.ne'⟩, fun h => ⟨h.1, .inl rfl⟩⟩

/-- A plus sign makes another text of the same request. -/
theorem parseMinor_canonical_not_plus : ¬∀ s : String,
    (∀ b, parseMinor s = some b → b.text = s) ∧
      ∀ (b : Bigint) allowZero, 0 < (b : ℤ) →
        (parseMinor s = some b ↔ parseFinancialInt s allowZero = some b) := by
  intro h
  exact absurd ((h "+5").1 ⟨5, by decide⟩ (by decide +kernel)) (by decide +kernel)

/-! ## The codec of the browser -/

namespace Browser

/-- `exponents`. The keys are upper-case, so no inherited property is found by one. -/
def exponents : List (String × ℕ) :=
  [("EUR", 2), ("GBP", 2), ("INR", 2), ("JPY", 0), ("KWD", 3), ("USD", 2)]

/-- `maximumMinorUnits`. -/
def maximumMinorUnits : List Char := "9223372036854775807".toList

/-- `exceedsSigned64BitMinorUnits`. -/
def exceedsSigned64BitMinorUnits (value : List Char) : Bool :=
  value.length > maximumMinorUnits.length ∨
    (value.length = maximumMinorUnits.length ∧ maximumMinorUnits < value)

/-- White space and line terminators of the browser. -/
def isTrimmed (c : Char) : Bool :=
  c ∈ ['\t', '\n', '\x0b', '\x0c', '\r', ' ', '\u00a0', '\u1680', '\u2028', '\u2029', '\u202f',
    '\u205f', '\u3000', '\ufeff'] ∨ (0x2000 ≤ c.toNat ∧ c.toNat ≤ 0x200a)

/-- `trim`. -/
def trim (s : String) : List Char := (s.toList.dropWhile isTrimmed).rdropWhile isTrimmed

/-- `currency.trim().toUpperCase()`, of a text in ASCII. -/
def currencyCode (currency : String) : String :=
  String.ofList ((trim currency).map fun c =>
    if 'a' ≤ c ∧ c ≤ 'z' then Char.ofNat (c.toNat - 32) else c)

/-- The texts that match `^\d+$`. -/
def isDigits (value : List Char) : Bool := value ≠ [] ∧ value.all Char.isDigit

/-- The parts of a text that matches `^\d+(?:\.\d+)?$`; without a point the fraction is empty. -/
def decimalParts (value : List Char) : Option (List Char × List Char) :=
  match value.splitOn '.' with
  | [whole] => if isDigits whole then some (whole, []) else none
  | [whole, fractional] =>
    if isDigits whole ∧ isDigits fractional then some (whole, fractional) else none
  | _ => none

/-- `replace(/^0+(?=\d)/, "")`. -/
def dropLeadingZeros : List Char → List Char
  | '0' :: c :: cs => if c.isDigit then dropLeadingZeros (c :: cs) else '0' :: c :: cs
  | cs => cs

/-- `padEnd(length, "0")`. -/
def padEnd (length : ℕ) (cs : List Char) : List Char :=
  cs ++ List.replicate (length - cs.length) '0'

/-- `padStart(length, "0")`. -/
def padStart (length : ℕ) (cs : List Char) : List Char :=
  List.replicate (length - cs.length) '0' ++ cs

/-- `minorUnitsFromDecimal`. -/
def minorUnitsFromDecimal (currency input : String) : Except String String :=
  let code := currencyCode currency
  match exponents.lookup code, decimalParts (trim input) with
  | some exponent, some (whole, fractional) =>
    if fractional.length > exponent then
      .error (code ++ " supports at most " ++ decimal exponent ++ " decimal places.")
    else
      let digits := (dropLeadingZeros whole ++ padEnd exponent fractional).dropWhile (· = '0')
      let normalized := if digits = [] then ['0'] else digits
      if normalized = ['0'] then .error "Amount must be greater than zero."
      else if exceedsSigned64BitMinorUnits normalized then
        .error "Amount exceeds the supported exact minor-unit range."
      else .ok (String.ofList normalized)
  | _, _ => .error "Enter a positive amount using the account currency precision."

/-- The options of `formatMinorUnits`. -/
structure FormatOptions where
  groupThousands : Bool := false
  showCurrencyCode : Bool := true

/-- `replace(/\B(?=(\d{3})+(?!\d))/g, ",")`, of digits. -/
def groupThousands : List Char → List Char
  | [] => []
  | c :: cs =>
    if cs ≠ [] ∧ cs.length % 3 = 0 then c :: ',' :: groupThousands cs else c :: groupThousands cs

/-- `formatMinorUnits`. -/
def formatMinorUnits (currency minorUnits : String) (options : FormatOptions := {}) : String :=
  let code := currencyCode currency
  let value := trim minorUnits
  match exponents.lookup code with
  | none => "Unavailable"
  | some exponent =>
    if isDigits value = false ∨ exceedsSigned64BitMinorUnits value = true then "Unavailable"
    else
      let padded := padStart (exponent + 1) value
      let whole := if exponent = 0 then value
        else dropLeadingZeros (padded.take (padded.length - exponent))
      let fractional := padded.drop (padded.length - exponent)
      let shown := if options.groupThousands then groupThousands whole else whole
      let amount := String.ofList (if exponent = 0 then shown else shown ++ '.' :: fractional)
      if options.showCurrencyCode then code ++ " " ++ amount else amount

section Texts

variable {s code : String}

/-- Of the ASCII characters both trim the same. -/
theorem isTrimmed_of_ascii {c : Char} (h : c.toNat < 128) : isTrimmed c = isSpace c := by
  have hnext : c ≠ '\u0085' ∧ c ≠ '\ufeff' := by
    constructor <;> rintro rfl <;> exact absurd h (by decide)
  unfold isTrimmed isSpace
  simp only [List.mem_cons, List.not_mem_nil, or_false, hnext.1, hnext.2, false_or]

/-- What is dropped depends only on the characters that are tested. -/
theorem dropWhile_congr {p q : Char → Bool} {l : List Char} (h : ∀ c ∈ l, p c = q c) :
    l.dropWhile p = l.dropWhile q := by
  induction l with
  | nil => rfl
  | cons c cs ih =>
    rw [List.dropWhile_cons, List.dropWhile_cons, h c List.mem_cons_self,
      ih fun x hx => h x (List.mem_cons_of_mem c hx)]

/-- The browser trims a text in ASCII as the server does. -/
theorem trim_of_ascii (h : ∀ c ∈ s.toList, c.toNat < 128) : trim s = (trimSpace s).toList := by
  have hrest : ∀ c ∈ (s.toList.dropWhile isSpace).reverse, isTrimmed c = isSpace c := by
    intro c hc
    exact isTrimmed_of_ascii (h c (List.dropWhile_suffix _ |>.subset (List.mem_reverse.mp hc)))
  unfold trim trimSpace
  rw [String.toList_ofList, dropWhile_congr fun c hc => isTrimmed_of_ascii (h c hc)]
  unfold List.rdropWhile
  rw [dropWhile_congr hrest]

/-- The code of an ASCII text is the trimmed text in upper case. -/
theorem currencyCode_of_ascii (h : ∀ c ∈ code.toList, c.toNat < 128) :
    currencyCode code = String.ofList ((trimSpace code).toList.map upperLetter) := by
  have hsub : ∀ c ∈ (trimSpace code).toList, c ∈ code.toList := by
    intro c hc
    unfold trimSpace at hc
    rw [String.toList_ofList] at hc
    exact (List.dropWhile_suffix _).subset ((List.rdropWhile_prefix _ _).subset hc)
  unfold currencyCode
  rw [trim_of_ascii h]
  refine congrArg String.ofList (List.map_congr_left fun c hc => ?_)
  have hascii := h c (hsub c hc)
  unfold upperLetter
  rw [if_neg (show c ≠ '\u0131' by rintro rfl; exact absurd hascii (by decide)),
    if_neg (show c ≠ '\u017f' by rintro rfl; exact absurd hascii (by decide))]

/-- A look-up in a mapped list maps what is found. -/
theorem lookup_map {α : Type} (key : α → String) (value : α → ℕ) (k : String) (l : List α) :
    (l.map fun a => (key a, value a)).lookup k = (l.find? (key · = k)).map value := by
  induction l with
  | nil => rfl
  | cons a l ih =>
    rw [List.map_cons, List.lookup_cons, List.find?_cons]
    by_cases h : key a = k
    · rw [decide_eq_true h, beq_iff_eq.mpr h.symm]
      rfl
    · rw [decide_eq_false h, beq_eq_false_iff_ne.mpr (Ne.symm h)]
      exact ih

/-- The browser knows the currencies of the server, with their exponents. -/
theorem lookup_exponents (h : ∀ c ∈ code.toList, c.toNat < 128) :
    exponents.lookup (currencyCode code) = (lookupCurrency code).map Currency.exponent := by
  rw [currencyCode_of_ascii h]
  exact lookup_map Currency.code Currency.exponent _ supportedCurrencies

/-- The parts that the pattern finds are those of a text that spells a number. -/
theorem decimalParts_eq_some {whole fractional : List Char} :
    decimalParts (trimSpace s).toList = some (whole, fractional) ↔
      Money.Spells s whole fractional := by
  have hdigits : ∀ {l : List Char}, isDigits l = true ↔ l ≠ [] ∧ ∀ c ∈ l, c.isDigit = true := by
    intro l
    simp [isDigits]
  -- The text is read off its parts with the dots between them.
  have hsplit : ['.'].intercalate ((trimSpace s).toList.splitOn '.') = (trimSpace s).toList :=
    List.intercalate_splitOn '.'
  constructor
  · intro h
    unfold decimalParts at h
    split at h
    -- One part is a whole number, two are a whole number and a fraction.
    · next part hpart =>
      split_ifs at h with hd
      cases h
      rw [hpart] at hsplit
      exact ⟨by simpa [List.intercalate] using hsplit.symm, (hdigits.mp hd).1, (hdigits.mp hd).2,
        fun c hc => absurd hc List.not_mem_nil⟩
    · next first second hparts =>
      split_ifs at h with hd
      cases h
      rw [hparts] at hsplit
      refine ⟨?_, (hdigits.mp hd.1).1, (hdigits.mp hd.1).2, (hdigits.mp hd.2).2⟩
      rw [if_neg (hdigits.mp hd.2).1, ← hsplit]
      simp [List.intercalate]
    · cases h
  · intro h
    have hwhole := hdigits.mpr ⟨h.whole_ne_nil, h.whole_digits⟩
    unfold decimalParts
    rw [h.splitOn]
    by_cases hnil : fractional = []
    · rw [if_pos hnil, hnil]
      exact if_pos hwhole
    · rw [if_neg hnil]
      exact if_pos ⟨hwhole, hdigits.mpr ⟨hnil, h.fraction_digits⟩⟩

end Texts

section Digits

variable {ds : List Char}

/-- Leading zeros add nothing to the value. -/
theorem ofDigitChars_dropWhile (ds : List Char) :
    Nat.ofDigitChars 10 (ds.dropWhile (· = '0')) 0 = Nat.ofDigitChars 10 ds 0 := by
  induction ds with
  | nil => rfl
  | cons c cs ih =>
    by_cases hc : c = '0'
    · rw [List.dropWhile_cons_of_pos (by simpa using hc), ih, Nat.ofDigitChars_cons, hc]
      rfl
    · rw [List.dropWhile_cons_of_neg (by simpa using hc)]

/-- Without its leading zeros a text of digits is the text of its value; of zero nothing is left. -/
theorem dropWhile_zeros (hd : ∀ c ∈ ds, c.isDigit = true) :
    (if ds.dropWhile (· = '0') = [] then ['0'] else ds.dropWhile (· = '0')) =
      Nat.toDigits 10 (Nat.ofDigitChars 10 ds 0) := by
  rw [← ofDigitChars_dropWhile ds]
  have hhead := List.head?_dropWhile_not (fun c => decide (c = '0')) ds
  have hrest : ∀ c ∈ ds.dropWhile (· = '0'), c.isDigit = true := fun c hc =>
    hd c ((List.dropWhile_suffix _).subset hc)
  rcases hdrop : ds.dropWhile (· = '0') with _ | ⟨c, cs⟩
  · rw [if_pos rfl]
    rfl
  · rw [hdrop] at hhead hrest
    rw [if_neg (List.cons_ne_nil c cs), toDigits_ofDigitChars hrest (by simpa using hhead)]

/-- Without its zeros a number is the same with or without leading ones. -/
theorem dropWhile_dropLeadingZeros (ds rest : List Char) :
    (dropLeadingZeros ds ++ rest).dropWhile (· = '0') = (ds ++ rest).dropWhile (· = '0') := by
  fun_induction dropLeadingZeros ds with
  | case1 c cs hc ih =>
    rw [ih]
    exact (List.dropWhile_cons_of_pos (by decide)).symm
  | case2 c cs hc => rfl
  | case3 cs hcs => rfl

/-- The zeros that are dropped before a digit leave the text of the value. -/
theorem dropLeadingZeros_eq (hne : ds ≠ []) (hd : ∀ c ∈ ds, c.isDigit = true) :
    dropLeadingZeros ds = Nat.toDigits 10 (Nat.ofDigitChars 10 ds 0) := by
  fun_induction dropLeadingZeros ds with
  | case1 c cs hc ih =>
    rw [ih (List.cons_ne_nil c cs) fun x hx => hd x (List.mem_cons_of_mem _ hx)]
    rw [Nat.ofDigitChars_cons (c := '0')]
    rfl
  | case2 c cs hc =>
    exact absurd (hd c (List.mem_cons_of_mem _ List.mem_cons_self)) hc
  | case3 cs hcs =>
    refine (toDigits_of_canonical hne hd fun hlong hhead => ?_).symm
    rcases cs with _ | ⟨c, _ | ⟨d, rest⟩⟩
    · exact hne rfl
    · exact absurd hlong (by simp)
    · obtain rfl : c = '0' := Option.some.inj hhead
      exact hcs d rest rfl

/-- A number exceeds 64 bits if and only if its text does. -/
theorem exceeds_toDigits (n : ℕ) :
    exceedsSigned64BitMinorUnits (Nat.toDigits 10 n) = true ↔ 2 ^ 63 ≤ n := by
  have hmax : maximumMinorUnits = Nat.toDigits 10 (2 ^ 63 - 1) := by decide +kernel
  have horder := shortlex_toDigits (2 ^ 63 - 1) n
  unfold exceedsSigned64BitMinorUnits
  rw [decide_eq_true_eq, hmax, gt_iff_lt, eq_comm (a := (Nat.toDigits 10 n).length), ← horder]
  omega

end Digits

section Agreement

variable {s code : String}

/-- Padding at the end adds digits. -/
theorem isDigit_padEnd {l : List Char} {length : ℕ} (hl : ∀ c ∈ l, c.isDigit = true) :
    ∀ c ∈ padEnd length l, c.isDigit = true := by
  intro c hc
  rcases List.mem_append.mp hc with hc | hc
  · exact hl c hc
  · rw [(List.mem_replicate.mp hc).2]
    decide

/-- What the browser reads: the minor units of the parts, when they are positive and fit. -/
theorem minorUnitsFromDecimal_ok (hcode : ∀ c ∈ code.toList, c.toNat < 128)
    (hs : ∀ c ∈ s.toList, c.toNat < 128) {minor : String} :
    minorUnitsFromDecimal code s = .ok minor ↔ ∃ currency whole fractional,
      lookupCurrency code = some currency ∧ Money.Spells s whole fractional ∧
        fractional.length ≤ currency.exponent ∧ ∃ n,
          Nat.ofDigitChars 10 (whole ++ padEnd currency.exponent fractional) 0 = n ∧ 0 < n ∧
            n < 2 ^ 63 ∧ minor = String.ofList (Nat.toDigits 10 n) := by
  -- Only zero has no digit left once the leading zeros are gone.
  have hzero : ∀ n, Nat.toDigits 10 n = ['0'] ↔ n = 0 := by
    intro n
    constructor
    · intro h
      rw [← Nat.ofDigitChars_ten_toDigits (n := n), h]
      rfl
    · rintro rfl
      rfl
  unfold minorUnitsFromDecimal
  simp only [lookup_exponents hcode, trim_of_ascii hs]
  rcases hcurrency : lookupCurrency code with _ | currency
  · exact iff_of_false (fun h => (nomatch h)) fun ⟨_, _, _, h, _⟩ => (nomatch h)
  rcases hparts : decimalParts (trimSpace s).toList with _ | ⟨whole, fractional⟩
  · refine iff_of_false (fun h => (nomatch h)) ?_
    rintro ⟨_, whole, fractional, -, hspells, -⟩
    rw [decimalParts_eq_some.mpr hspells] at hparts
    cases hparts
  have hspells := decimalParts_eq_some.mp hparts
  -- The padded digits are those of the amount in minor units.
  have hdigits : ∀ c ∈ whole ++ padEnd currency.exponent fractional, c.isDigit = true := by
    intro c hc
    rcases List.mem_append.mp hc with hc | hc
    · exact hspells.whole_digits c hc
    · exact isDigit_padEnd hspells.fraction_digits c hc
  simp only [Option.map_some, dropWhile_dropLeadingZeros, dropWhile_zeros hdigits]
  generalize hn : Nat.ofDigitChars 10 (whole ++ padEnd currency.exponent fractional) 0 = n
  constructor
  · intro h
    split_ifs at h with hlong hnil hexceeds
    obtain rfl := Except.ok.inj h
    rw [hzero] at hnil
    rw [exceeds_toDigits] at hexceeds
    exact ⟨currency, whole, fractional, rfl, hspells, Nat.le_of_not_lt hlong, n, hn,
      Nat.pos_of_ne_zero hnil, Nat.lt_of_not_le hexceeds, rfl⟩
  · rintro ⟨_, other, fraction, hsame, hother, hlength, m, hm, hpos, hfits, rfl⟩
    obtain rfl := Option.some.inj hsame
    -- The parts of a text are unique.
    obtain ⟨rfl, rfl⟩ : other = whole ∧ fraction = fractional := by
      have hread := decimalParts_eq_some.mpr hother
      rw [hparts] at hread
      cases hread
      exact ⟨rfl, rfl⟩
    obtain rfl := hn.symm.trans hm
    rw [if_neg (Nat.not_lt.mpr hlength), if_neg (mt (hzero _).mp hpos.ne'),
      if_neg (mt (exceeds_toDigits _).mp (Nat.not_le.mpr hfits))]

/-- The browser reads a positive amount if and only if the server does, and as the same minor units.
-/
theorem minorUnitsFromDecimal_iff (hcode : ∀ c ∈ code.toList, c.toNat < 128)
    (hs : ∀ c ∈ s.toList, c.toNat < 128) {minor : String} :
    minorUnitsFromDecimal code s = .ok minor ↔
      ∃ m, Money.parse code s = some m ∧ 0 < (m.minor : ℤ) ∧ minor = m.minor.text := by
  -- Padding the fraction to the exponent multiplies the value by its power of ten.
  have hvalue : ∀ {exponent : ℕ} {whole fractional : List Char}, fractional.length ≤ exponent →
      Money.decimalValue whole fractional * 10 ^ exponent =
        (Nat.ofDigitChars 10 (whole ++ padEnd exponent fractional) 0 : ℕ) := by
    intro exponent whole fractional hlength
    rw [Money.decimalValue_mul hlength, padEnd, List.append_assoc]
  rw [minorUnitsFromDecimal_ok hcode hs]
  constructor
  · rintro ⟨currency, whole, fractional, hcurrency, hspells, hlength, n, hn, hpos, hfits, rfl⟩
    have hinRange : -2 ^ 63 ≤ (n : ℤ) ∧ (n : ℤ) < 2 ^ 63 := ⟨by omega, by exact_mod_cast hfits⟩
    refine ⟨⟨currency, ⟨n, hinRange⟩, Int.natCast_nonneg n⟩, ?_, Int.natCast_pos.mpr hpos, rfl⟩
    refine Money.parse_eq_some.mpr ⟨hcurrency, whole, fractional, hspells, hlength, ?_⟩
    rw [hvalue hlength, hn]
    exact Int.cast_natCast n
  -- Conversely the digits of the amount are read back from its value.
  · rintro ⟨m, hm, hpos, rfl⟩
    obtain ⟨hcurrency, whole, fractional, hspells, hlength, hminor⟩ := Money.parse_eq_some.mp hm
    obtain ⟨n, hn⟩ := Int.eq_ofNat_of_zero_le m.nonneg
    have hlt := m.minor.inRange.2
    rw [hn] at hpos hlt
    refine ⟨m.currency, whole, fractional, hcurrency, hspells, hlength, n, ?_,
      by exact_mod_cast hpos, by exact_mod_cast hlt, ?_⟩
    · rw [hvalue hlength, hn] at hminor
      exact_mod_cast hminor.symm
    · rw [Bigint.text, hn, decimal_natCast]

/-- The digits before and behind the point, of digits that are padded with zeros. -/
theorem padStart_split (exponent n : ℕ) :
    let padded := padStart (exponent + 1) (Nat.toDigits 10 n)
    dropLeadingZeros (padded.take (padded.length - exponent)) = Nat.toDigits 10 (n / 10 ^ exponent) ∧
      padded.drop (padded.length - exponent) = padDigits exponent (n % 10 ^ exponent) := by
  intro padded
  have hd : ∀ c ∈ padded, c.isDigit = true := by
    intro c hc
    rcases List.mem_append.mp hc with hc | hc
    · rw [(List.mem_replicate.mp hc).2]
      decide
    · exact Nat.isDigit_of_mem_toDigits (by decide) (by decide) hc
  have hlength : exponent + 1 ≤ padded.length := by
    simp only [padded, padStart, List.length_append, List.length_replicate]
    omega
  have hvalue : Nat.ofDigitChars 10 padded 0 = n := by
    simp only [padded, padStart]
    rw [Nat.ofDigitChars_append, Nat.ofDigitChars_replicate_zero, Nat.mul_zero,
      Nat.ofDigitChars_ten_toDigits]
  -- The padded digits are cut at the exponent: the whole part before, the fraction after.
  have hsplit := List.take_append_drop (padded.length - exponent) padded
  have hwhole : padded.take (padded.length - exponent) ≠ [] := by
    rw [← List.length_pos_iff, List.length_take]
    omega
  have hfraction : (padded.drop (padded.length - exponent)).length = exponent := by
    rw [List.length_drop]
    omega
  generalize padded.take (padded.length - exponent) = whole at hsplit hwhole ⊢
  generalize padded.drop (padded.length - exponent) = fraction at hsplit hfraction ⊢
  rw [← hsplit] at hd hvalue
  have hdw : ∀ c ∈ whole, c.isDigit = true := fun c hc => hd c (List.mem_append_left _ hc)
  have hdf : ∀ c ∈ fraction, c.isDigit = true := fun c hc => hd c (List.mem_append_right _ hc)
  have hlow : Nat.ofDigitChars 10 fraction 0 < 10 ^ exponent := hfraction ▸ ofDigitChars_lt hdf
  rw [Nat.ofDigitChars_append, Nat.ofDigitChars_eq_ofDigitChars_zero, hfraction] at hvalue
  -- The fraction is below the power, so that the two parts are quotient and remainder.
  obtain ⟨hdiv, hmod⟩ := (Nat.div_mod_unique (Nat.pow_pos (by decide) : 0 < 10 ^ exponent)).mpr
    ⟨(Nat.add_comm _ _).trans hvalue, hlow⟩
  constructor
  · rw [dropLeadingZeros_eq hwhole hdw, hdiv]
  · refine digits_inj (hfraction.trans (length_padDigits _ _).symm) hdf
      (fun c hc => isDigit_padDigits hc) ?_
    rw [ofDigitChars_padDigits (hmod ▸ hlow), hmod]

/-- The code of the browser is that of the currency. -/
theorem currencyCode_eq (hcode : ∀ c ∈ code.toList, c.toNat < 128) {currency : Currency}
    (h : lookupCurrency code = some currency) : currencyCode code = currency.code := by
  have hfound := List.find?_some h
  rw [currencyCode_of_ascii hcode]
  exact (of_decide_eq_true hfound).symm

/-- The browser writes the amount that the server writes. -/
theorem formatMinorUnits_eq (hcode : ∀ c ∈ code.toList, c.toNat < 128) {m : Money}
    (hcurrency : lookupCurrency code = some m.currency) (shown : Bool) :
    formatMinorUnits code m.minor.text { showCurrencyCode := shown } =
      if shown then m.string else m.amountText := by
  obtain ⟨n, hn⟩ := Int.eq_ofNat_of_zero_le m.nonneg
  have hlt := m.minor.inRange.2
  -- The text of an amount is its digits alone, with nothing to trim.
  have htext : m.minor.text = String.ofList (Nat.toDigits 10 n) := by
    rw [Bigint.text, hn, decimal_natCast]
  have hd : ∀ c ∈ Nat.toDigits 10 n, c.isDigit = true := fun c hc =>
    Nat.isDigit_of_mem_toDigits (by decide) (by decide) hc
  have htrim : trim m.minor.text = Nat.toDigits 10 n := by
    rw [htext, trim_of_ascii, trimSpace_of_ends, String.toList_ofList]
    · rw [String.toList_ofList]
      exact fun c hc => Money.isSpace_of_digit (hd c (List.mem_of_head? hc))
    · rw [String.toList_ofList]
      exact fun c hc => Money.isSpace_of_digit (hd c (List.mem_of_getLast? hc))
    · rw [String.toList_ofList]
      exact fun c hc => digit_ascii (hd c hc)
  -- The digits pass the two checks of the formatter.
  have hgood : ¬(isDigits (Nat.toDigits 10 n) = false ∨
      exceedsSigned64BitMinorUnits (Nat.toDigits 10 n) = true) := by
    rintro (hbad | hbad)
    · have hall : isDigits (Nat.toDigits 10 n) = true := by
        simpa [isDigits, Nat.toDigits_ne_nil] using hd
      rw [hall] at hbad
      cases hbad
    · rw [hn] at hlt
      have hmax : n < 2 ^ 63 := by exact_mod_cast hlt
      exact absurd ((exceeds_toDigits n).mp hbad) (Nat.not_le.mpr hmax)
  have htoNat : (m.minor : ℤ).toNat = n := by rw [hn]; rfl
  have hcodeEq := currencyCode_eq hcode hcurrency
  have hlookup : exponents.lookup m.currency.code = some m.currency.exponent := by
    rw [← hcodeEq, lookup_exponents hcode, hcurrency]
    rfl
  obtain ⟨hwhole, hfraction⟩ := padStart_split m.currency.exponent n
  unfold formatMinorUnits Money.string Money.amountText
  simp only [hcodeEq, htrim, hlookup, if_neg hgood, htoNat, hwhole, hfraction, Bool.false_eq_true,
    if_false]
  -- Without minor units no point is written.
  by_cases hzero : m.currency.exponent = 0
  · simp only [hzero, if_true, pow_zero, Nat.div_one]
  · simp only [hzero, if_false]

/-- An amount is written in ASCII. -/
theorem ascii_amountText (m : Money) : ∀ c ∈ m.amountText.toList, c.toNat < 128 := by
  have hwhole : ∀ n, ∀ c ∈ Nat.toDigits 10 n, c.toNat < 128 := fun n c hc =>
    digit_ascii (Nat.isDigit_of_mem_toDigits (by decide) (by decide) hc)
  intro c hc
  unfold Money.amountText at hc
  dsimp only at hc
  split_ifs at hc
  · rw [String.toList_ofList] at hc
    exact hwhole _ c hc
  · rw [String.toList_ofList] at hc
    rcases List.mem_append.mp hc with hc | hc
    · exact hwhole _ c hc
    · rcases List.mem_cons.mp hc with rfl | hc
      · decide
      · exact digit_ascii (isDigit_padDigits hc)

end Agreement

end Browser

/-- **The browser and the server write and read the same amounts.** For every currency and every
text in ASCII the browser reads minor units if and only if the server reads a positive amount, and
the same ones; it writes canonical minor units as `String` does; and it reads what it has written
without the code as the same minor units. -/
theorem browser_money_agrees :
    (∀ code s : String, (∀ c ∈ code.toList, c.toNat < 128) → (∀ c ∈ s.toList, c.toNat < 128) →
      ∀ minor, Browser.minorUnitsFromDecimal code s = .ok minor ↔
        ∃ m, Money.parse code s = some m ∧ 0 < (m.minor : ℤ) ∧ minor = m.minor.text) ∧
    ∀ (code : String) (m : Money), (∀ c ∈ code.toList, c.toNat < 128) →
      lookupCurrency code = some m.currency →
        Browser.formatMinorUnits code m.minor.text { showCurrencyCode := true } = m.string ∧
        (0 < (m.minor : ℤ) → Browser.minorUnitsFromDecimal code
          (Browser.formatMinorUnits code m.minor.text { showCurrencyCode := false }) =
            .ok m.minor.text) := by
  refine ⟨fun code s hcode hs minor => Browser.minorUnitsFromDecimal_iff hcode hs,
    fun code m hcode hcurrency => ⟨Browser.formatMinorUnits_eq hcode hcurrency true, fun hpos => ?_⟩⟩
  rw [Browser.formatMinorUnits_eq hcode hcurrency false]
  exact (Browser.minorUnitsFromDecimal_iff hcode (Browser.ascii_amountText m)).mpr
    ⟨m, Money.parse_amountText hcurrency, hpos, rfl⟩

end LedgerSync
