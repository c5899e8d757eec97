import LedgerSync.Lib.Calendar
import LedgerSync.ServiceValues

/-!
# Money of the services

Amounts are minor units of a registered currency. They are written with the decimal exponent of the
currency and read back without rounding; what is written is read as the same amount
(`Money.parse_amountText`).
-/

namespace LedgerSync

open Lib

/-! ## Currencies -/

/-- `Currency`. -/
structure Currency where
  code : String
  exponent : ℕ
deriving DecidableEq

/-- `supported`. -/
def supportedCurrencies : List Currency :=
  [⟨"EUR", 2⟩, ⟨"GBP", 2⟩, ⟨"INR", 2⟩, ⟨"JPY", 0⟩, ⟨"KWD", 3⟩, ⟨"USD", 2⟩]

/-- `unicode.ToUpper`, as far as it makes letters from `A` to `Z`. -/
def upperLetter (c : Char) : Char :=
  if 'a' ≤ c ∧ c ≤ 'z' then Char.ofNat (c.toNat - 32)
  else if c = '\u0131' then 'I'
  else if c = '\u017f' then 'S'
  else c

/-- `LookupCurrency`. -/
def lookupCurrency (code : String) : Option Currency :=
  let upper := String.ofList ((trimSpace code).toList.map upperLetter)
  supportedCurrencies.find? (·.code = upper)

/-- A visible character of ASCII is no space. -/
theorem isSpace_of_visible {c : Char} (hlo : 33 ≤ c.toNat) (hhi : c.toNat ≤ 126) :
    isSpace c = false := by
  unfold isSpace
  rw [decide_eq_false_iff_not]
  rintro (hmem | hrange)
  · simp only [List.mem_cons, List.not_mem_nil, or_false] at hmem
    rcases hmem with rfl | rfl | rfl | rfl | rfl | rfl | rfl | rfl | rfl | rfl | rfl | rfl | rfl | rfl
    all_goals simp at hlo hhi
  · omega

/-- A letter is no space. -/
theorem isSpace_of_letter {c : Char} (h : 'A' ≤ c ∧ c ≤ 'Z') : isSpace c = false := by
  have hlo : 65 ≤ c.toNat := h.1
  have hhi : c.toNat ≤ 90 := h.2
  exact isSpace_of_visible (by omega) (by omega)

/-- A text whose ends are not spaces is not trimmed. -/
theorem trimSpace_of_ends {s : String} (hhead : ∀ c, s.toList.head? = some c → isSpace c = false)
    (hlast : ∀ c, s.toList.getLast? = some c → isSpace c = false) : trimSpace s = s := by
  unfold trimSpace
  have hdrop : s.toList.dropWhile isSpace = s.toList := by
    rcases hs : s.toList with _ | ⟨c, cs⟩
    · rfl
    · rw [List.dropWhile_cons_of_neg]
      rw [hhead c (by rw [hs]; rfl)]
      decide
  rw [hdrop, List.rdropWhile_eq_self_iff.mpr, String.ofList_toList]
  intro hne
  rw [hlast _ (List.getLast?_eq_some_getLast hne)]
  decide

/-- The first character that is kept is not a space. -/
theorem isSpace_of_head {s : String} {c : Char} (hc : (trimSpace s).toList.head? = some c) :
    isSpace c = false := by
  unfold trimSpace at hc
  rw [String.toList_ofList] at hc
  have hhead : (s.toList.dropWhile isSpace).head? = some c := by
    obtain ⟨rest, hrest⟩ := List.rdropWhile_prefix isSpace (s.toList.dropWhile isSpace)
    obtain ⟨cs, hcs⟩ := List.head?_eq_some_iff.mp hc
    rw [← hrest, hcs]
    rfl
  have hnot := List.head?_dropWhile_not isSpace s.toList
  rw [hhead] at hnot
  exact hnot

/-- The last character that is kept is not a space. -/
theorem isSpace_of_last {s : String} {c : Char} (hc : (trimSpace s).toList.getLast? = some c) :
    isSpace c = false := by
  unfold trimSpace at hc
  rw [String.toList_ofList] at hc
  have hne : (s.toList.dropWhile isSpace).rdropWhile isSpace ≠ [] := by
    intro hnil
    rw [hnil] at hc
    cases hc
  have hlast := List.rdropWhile_last_not isSpace _ hne
  rw [List.getLast?_eq_some_getLast hne] at hc
  rw [← Option.some.inj hc]
  exact Bool.eq_false_iff.mpr hlast

/-- What is trimmed stays as it is. -/
theorem trimSpace_trimSpace (s : String) : trimSpace (trimSpace s) = trimSpace s :=
  trimSpace_of_ends (fun _ => isSpace_of_head) fun _ => isSpace_of_last

/-- The currency of a code of three letters has that code. -/
theorem lookupCurrency_code {code : String} {currency : Currency}
    (h : lookupCurrency code = some currency) (hcode : IsCurrency code) : currency.code = code := by
  -- A capital letter is mapped to itself and is no space.
  have hletter : ∀ c ∈ code.toList, upperLetter c = c ∧ isSpace c = false := by
    intro c hc
    refine ⟨?_, isSpace_of_letter (hcode.2 c hc)⟩
    have hhi : c.toNat ≤ 90 := (hcode.2 c hc).2
    unfold upperLetter
    rw [if_neg, if_neg, if_neg]
    · rintro rfl
      simp at hhi
    · rintro rfl
      simp at hhi
    · rintro ⟨hlo, -⟩
      have hlo : 97 ≤ c.toNat := hlo
      omega
  have htrim : trimSpace code = code :=
    trimSpace_of_ends (fun c hc => (hletter c (List.mem_of_head? hc)).2)
      (fun c hc => (hletter c (List.mem_of_getLast? hc)).2)
  have hmap : code.toList.map upperLetter = code.toList := by
    conv_rhs => rw [← List.map_id code.toList]
    exact List.map_congr_left fun c hc => (hletter c hc).1
  -- The currency was found under this text.
  have hfound := List.find?_some h
  rw [decide_eq_true_eq, htrim, hmap, String.ofList_toList] at hfound
  exact hfound

/-- The code of a registered currency is registered as that currency. -/
theorem lookupCurrency_supported : ∀ c ∈ supportedCurrencies, lookupCurrency c.code = some c := by
  decide +kernel

/-! ## Amounts -/

/-- `Money`. -/
structure Money where
  currency : Currency
  minor : Bigint
  nonneg : 0 ≤ (minor : ℤ)

namespace Money

/-- `money.New`. -/
def new (code : String) (minor : Bigint) : Option Money :=
  if h : 0 ≤ (minor : ℤ) then (lookupCurrency code).map fun currency => ⟨currency, minor, h⟩
  else none

/-- The amount in `String`, which puts the code and a blank before it. -/
def amountText (m : Money) : String :=
  let minor := (m.minor : ℤ).toNat
  let scale := 10 ^ m.currency.exponent
  let whole := Nat.toDigits 10 (minor / scale)
  if m.currency.exponent = 0 then String.ofList whole
  else String.ofList (whole ++ '.' :: padDigits m.currency.exponent (minor % scale))

/-- `Money.String`. -/
def string (m : Money) : String := m.currency.code ++ " " ++ m.amountText

/-- `parseMinor`, from a value on. -/
def parseMinor : List Char → ℕ → Option ℕ
  | [], minor => some minor
  | c :: cs, minor =>
    let digit := c.toNat - '0'.toNat
    if (2 ^ 63 - 1 - digit) / 10 < minor then none else parseMinor cs (minor * 10 + digit)

/-- An amount of so many minor units. -/
def ofMinor (currency : Currency) (n : ℕ) : Option Money :=
  (Bigint.ofInt? n).bind fun minor =>
    if h : 0 ≤ (minor : ℤ) then some ⟨currency, minor, h⟩ else none

/-- The value of the whole part and the fraction of an amount. -/
def ofParts (currency : Currency) (whole fraction : List Char) : Option Money :=
  if whole = [] ∨ whole.all Char.isDigit = false ∨ currency.exponent < fraction.length ∨
      fraction.all Char.isDigit = false then none
  else
    let zeros := List.replicate (currency.exponent - fraction.length) '0'
    (parseMinor (whole ++ fraction ++ zeros) 0).bind (ofMinor currency)

/-- `money.Parse`. -/
def parse (code decimal : String) : Option Money := do
  let currency ← lookupCurrency code
  let value := (trimSpace decimal).toList
  if value = [] ∨ value.head? = some '+' ∨ value.head? = some '-' then none
  else match value.splitOn '.' with
  | [whole] => ofParts currency whole []
  | [whole, fraction] => if fraction = [] then none else ofParts currency whole fraction
  | _ => none

/-- Digits are read as their value, unless it is too large. -/
theorem parseMinor_of_digits {ds : List Char} (hds : ∀ c ∈ ds, c.isDigit = true) {minor : ℕ}
    (hfits : Nat.ofDigitChars 10 ds minor < 2 ^ 63) :
    parseMinor ds minor = some (Nat.ofDigitChars 10 ds minor) := by
  induction ds generalizing minor with
  | nil => rfl
  | cons c cs ih =>
    rw [Nat.ofDigitChars_cons] at hfits ⊢
    have hge : 10 * minor + (c.toNat - '0'.toNat) ≤
        Nat.ofDigitChars 10 cs (10 * minor + (c.toNat - '0'.toNat)) := by
      rw [Nat.ofDigitChars_eq_ofDigitChars_zero]
      have hone : 1 ≤ 10 ^ cs.length := Nat.one_le_pow _ _ (by decide)
      nlinarith
    rw [parseMinor, if_neg (by omega), Nat.mul_comm minor 10]
    exact ih (fun x hx => hds x (List.mem_cons_of_mem c hx)) hfits

/-- A digit is no space. -/
theorem isSpace_of_digit {c : Char} (h : c.isDigit = true) : isSpace c = false := by
  have hrange : 48 ≤ c.toNat ∧ c.toNat ≤ 57 := by
    simpa [Char.isDigit, Char.le_def, UInt32.le_iff_toNat_le] using h
  exact isSpace_of_visible (by omega) (by omega)

/-- Minor units that are not negative are an amount. -/
theorem ofMinor_toNat {currency : Currency} {minor : Bigint} (h : 0 ≤ (minor : ℤ)) :
    ofMinor currency (minor : ℤ).toNat = some ⟨currency, minor, h⟩ := by
  have hfits : Bigint.ofInt? ((minor : ℤ).toNat : ℤ) = some minor := by
    rw [Bigint.ofInt?_eq_some, Int.toNat_of_nonneg h]
  unfold ofMinor
  rw [hfits, Option.bind_some, dif_pos h]

/-- The parts of an amount are read as its minor units. -/
theorem ofParts_digits {currency : Currency} {minor : Bigint} (hminor : 0 ≤ (minor : ℤ))
    {fraction : List Char}
    (hfraction : fraction = padDigits currency.exponent
      ((minor : ℤ).toNat % 10 ^ currency.exponent)) :
    ofParts currency (Nat.toDigits 10 ((minor : ℤ).toNat / 10 ^ currency.exponent)) fraction =
      some ⟨currency, minor, hminor⟩ := by
  set n := (minor : ℤ).toNat with hn
  set scale := 10 ^ currency.exponent with hscale
  have hpos : 0 < scale := Nat.pow_pos (by decide)
  have hdigits : ∀ c ∈ Nat.toDigits 10 (n / scale), c.isDigit = true := fun c hc =>
    Nat.isDigit_of_mem_toDigits (by decide) (by decide) hc
  have hlength : fraction.length = currency.exponent := by rw [hfraction, length_padDigits]
  -- Whole part and fraction together are the digits of the minor amount.
  have hvalue : Nat.ofDigitChars 10 (Nat.toDigits 10 (n / scale) ++ fraction) 0 = n := by
    rw [Nat.ofDigitChars_append, Nat.ofDigitChars_ten_toDigits,
      Nat.ofDigitChars_eq_ofDigitChars_zero, hlength, hfraction,
      ofDigitChars_padDigits (Nat.mod_lt n hpos)]
    exact Nat.div_add_mod n scale
  have hlt : n < 2 ^ 63 := by
    rw [hn]
    exact (Int.toNat_lt hminor).mpr (by exact_mod_cast minor.inRange.2)
  have hall : ∀ c ∈ Nat.toDigits 10 (n / scale) ++ fraction, c.isDigit = true := by
    intro c hc
    rcases List.mem_append.mp hc with hc | hc
    · exact hdigits c hc
    · rw [hfraction] at hc
      exact isDigit_padDigits hc
  unfold ofParts
  rw [if_neg]
  -- Nothing is padded, since the fraction has as many digits as the exponent.
  · have hread : parseMinor (Nat.toDigits 10 (n / scale) ++ fraction) 0 = some n := by
      rw [parseMinor_of_digits hall (by rw [hvalue]; exact hlt), hvalue]
    dsimp only
    rw [hlength, Nat.sub_self, List.replicate_zero, List.append_nil, hread, Option.bind_some, hn]
    exact ofMinor_toNat hminor
  -- None of the four refusals applies.
  · rintro (hnil | hbad | hlong | hbad)
    · exact Nat.toDigits_ne_nil hnil
    · rw [List.all_eq_true.mpr hdigits] at hbad
      cases hbad
    · omega
    · rw [List.all_eq_true.mpr fun c hc => hall c (List.mem_append_right _ hc)] at hbad
      cases hbad

/-- A text that starts and ends with digits is read by its parts. -/
theorem parse_of_parts {code : String} {currency : Currency} {l : List Char}
    (hcurrency : lookupCurrency code = some currency)
    (hhead : ∀ c, l.head? = some c → c.isDigit = true)
    (hlast : ∀ c, l.getLast? = some c → c.isDigit = true) (hne : l ≠ []) :
    parse code (String.ofList l) = match l.splitOn '.' with
      | [whole] => ofParts currency whole []
      | [whole, fraction] => if fraction = [] then none else ofParts currency whole fraction
      | _ => none := by
  have htrim : trimSpace (String.ofList l) = String.ofList l := by
    refine trimSpace_of_ends (fun c hc => ?_) (fun c hc => ?_)
    · rw [String.toList_ofList] at hc
      exact isSpace_of_digit (hhead c hc)
    · rw [String.toList_ofList] at hc
      exact isSpace_of_digit (hlast c hc)
  have hsign : ¬(l = [] ∨ l.head? = some '+' ∨ l.head? = some '-') := by
    rintro (h | h | h)
    · exact hne h
    · exact absurd (hhead _ h) (by decide)
    · exact absurd (hhead _ h) (by decide)
  unfold parse
  rw [hcurrency, htrim, String.toList_ofList]
  exact if_neg hsign

/-- **An amount that is written is read as the same amount.** -/
theorem parse_amountText {m : Money} {code : String}
    (hcurrency : lookupCurrency code = some m.currency) : parse code m.amountText = some m := by
  have hwhole : ∀ c ∈ Nat.toDigits 10 ((m.minor : ℤ).toNat / 10 ^ m.currency.exponent),
      c.isDigit = true := fun c hc => Nat.isDigit_of_mem_toDigits (by decide) (by decide) hc
  have hdot : ∀ l : List Char, (∀ c ∈ l, c.isDigit = true) → '.' ∉ l := by
    intro l hl hmem
    exact absurd (hl _ hmem) (by decide)
  unfold amountText
  dsimp only
  split
  · next hzero =>
    -- Without an exponent the minor units are the whole part.
    rw [parse_of_parts hcurrency (fun c hc => hwhole c (List.mem_of_head? hc))
      (fun c hc => hwhole c (List.mem_of_getLast? hc)) Nat.toDigits_ne_nil]
    have hsplit := @List.splitOn_intercalate _ [Nat.toDigits 10 _] _ _ '.'
      (by simpa using hdot _ hwhole) (by simp)
    rw [show ['.'].intercalate [Nat.toDigits 10 ((m.minor : ℤ).toNat / 10 ^ m.currency.exponent)] =
      Nat.toDigits 10 ((m.minor : ℤ).toNat / 10 ^ m.currency.exponent) by
        simp [List.intercalate]] at hsplit
    rw [hsplit]
    exact ofParts_digits m.nonneg (by rw [hzero]; rfl)
  · next hpos =>
    set whole := Nat.toDigits 10 ((m.minor : ℤ).toNat / 10 ^ m.currency.exponent) with hw
    set fraction := padDigits m.currency.exponent
      ((m.minor : ℤ).toNat % 10 ^ m.currency.exponent) with hf
    have hfraction : ∀ c ∈ fraction, c.isDigit = true := fun c hc => isDigit_padDigits hc
    have hne : fraction ≠ [] := by
      intro hnil
      have hlength : fraction.length = m.currency.exponent := length_padDigits _ _
      rw [hnil] at hlength
      exact hpos hlength.symm
    have hsplit : (whole ++ '.' :: fraction).splitOn '.' = [whole, fraction] := by
      have hjoin : whole ++ '.' :: fraction = ['.'].intercalate [whole, fraction] := by
        simp [List.intercalate]
      rw [hjoin]
      exact List.splitOn_intercalate '.' (by simpa using ⟨hdot _ hwhole, hdot _ hfraction⟩) (by simp)
    rw [parse_of_parts hcurrency, hsplit]
    · dsimp only
      rw [if_neg hne]
      exact ofParts_digits m.nonneg rfl
    · intro c hc
      rw [List.head?_append_of_ne_nil _ Nat.toDigits_ne_nil] at hc
      exact hwhole c (List.mem_of_head? hc)
    · intro c hc
      rw [List.getLast?_append_cons, List.getLast?_cons_of_ne_nil hne] at hc
      exact hfraction c (List.mem_of_getLast? hc)
    · simp

end Money

end LedgerSync
