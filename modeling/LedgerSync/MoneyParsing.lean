import Mathlib.Data.Rat.Floor
import Mathlib.Tactic.FieldSimp
import LedgerSync.Money

/-!
# What amounts are read

`Parse` reads the texts that the contract of the API describes, digits with an optional fraction,
between blanks that are not looked at. What it reads is the value of the text times the power of ten
of the currency, and nothing is computed on the way that does not fit in 64 bits.
-/

namespace LedgerSync

open Lib

namespace Money

/-! ## Texts and their values -/

/-- A text that spells a number: digits, and behind a point at least one more digit. -/
structure Spells (text : String) (whole fraction : List Char) : Prop where
  shape : (trimSpace text).toList = whole ++ if fraction = [] then [] else '.' :: fraction
  whole_ne_nil : whole ≠ []
  whole_digits : ∀ c ∈ whole, c.isDigit = true
  fraction_digits : ∀ c ∈ fraction, c.isDigit = true

/-- The number that digits before and behind a point stand for. -/
def decimalValue (whole fraction : List Char) : ℚ :=
  Nat.ofDigitChars 10 whole 0 + Nat.ofDigitChars 10 fraction 0 / 10 ^ fraction.length

/-- The digits that are read, padded with zeros, are the value in minor units. -/
theorem decimalValue_mul {whole fraction : List Char} {exponent : ℕ}
    (h : fraction.length ≤ exponent) :
    decimalValue whole fraction * 10 ^ exponent =
      (Nat.ofDigitChars 10
        (whole ++ fraction ++ List.replicate (exponent - fraction.length) '0') 0 : ℕ) := by
  obtain ⟨k, rfl⟩ := Nat.exists_eq_add_of_le h
  rw [Nat.add_sub_cancel_left, Nat.ofDigitChars_append, Nat.ofDigitChars_replicate_zero,
    Nat.ofDigitChars_append, Nat.ofDigitChars_eq_ofDigitChars_zero]
  unfold decimalValue
  push_cast
  field_simp
  ring

/-! ## Reading digits -/

/-- `parseMinor` in 64-bit arithmetic, from a value on. -/
def parseMinorInt64 : List Char → ℤ → Option ℤ
  | [], minor => some minor
  | c :: cs, minor =>
    let digit := int64 ((c.toNat : ℤ) - '0'.toNat)
    if (int64 (2 ^ 63 - 1 - digit)).tdiv 10 < minor then none
    else parseMinorInt64 cs (int64 (int64 (minor * 10) + digit))

/-- What a digit stands for. -/
theorem digit_le {c : Char} (h : c.isDigit = true) :
    '0'.toNat ≤ c.toNat ∧ c.toNat - '0'.toNat ≤ 9 := by
  have hrange : 48 ≤ c.toNat ∧ c.toNat ≤ 57 := by
    simpa [Char.isDigit, Char.le_def, UInt32.le_iff_toNat_le] using h
  have hzero : '0'.toNat = 48 := rfl
  omega

/-- The guard of `parseMinor` leaves room for one more digit. -/
theorem next_lt {minor digit : ℕ} (hdigit : digit ≤ 9)
    (h : ¬(2 ^ 63 - 1 - digit) / 10 < minor) : minor * 10 + digit < 2 ^ 63 := by
  omega

/-- Nothing wraps around when digits are read. -/
theorem parseMinorInt64_eq {ds : List Char} (hds : ∀ c ∈ ds, c.isDigit = true) {minor : ℕ}
    (hminor : minor < 2 ^ 63) :
    parseMinorInt64 ds minor = (parseMinor ds minor).map fun n : ℕ => (n : ℤ) := by
  -- The induction is on the digits; the bound keeps every product and sum from wrapping.
  induction ds generalizing minor with
  | nil => rfl
  | cons c cs ih =>
    obtain ⟨hzero, hnine⟩ := digit_le (hds c List.mem_cons_self)
    obtain ⟨digit, hdigit⟩ : ∃ digit, digit = c.toNat - '0'.toNat := ⟨_, rfl⟩
    rw [← hdigit] at hnine
    have hcast : ((c.toNat : ℤ) - '0'.toNat) = (digit : ℤ) := by omega
    have hsmall : int64 (digit : ℤ) = digit := int64_of_fits ⟨by omega, by omega⟩
    have hroom : int64 (2 ^ 63 - 1 - (digit : ℤ)) = 2 ^ 63 - 1 - digit :=
      int64_of_fits ⟨by omega, by omega⟩
    have hdiv : (2 ^ 63 - 1 - (digit : ℤ)).tdiv 10 = (((2 ^ 63 - 1 - digit) / 10 : ℕ) : ℤ) := by
      rw [Int.tdiv_eq_ediv_of_nonneg (by omega)]
      omega
    unfold parseMinorInt64 parseMinor
    simp only [hcast, hsmall, hroom, hdiv, ← hdigit, Int.ofNat_lt]
    -- The code stops before the step that would overflow.
    split_ifs with hover
    · rfl
    · have hnext := next_lt hnine hover
      have hten : int64 ((minor : ℤ) * 10) = minor * 10 := int64_of_fits ⟨by omega, by omega⟩
      have hsum : int64 ((minor : ℤ) * 10 + digit) = ((minor * 10 + digit : ℕ) : ℤ) := by
        rw [int64_of_fits ⟨by omega, by omega⟩]
        push_cast
        ring
      rw [hten, hsum]
      exact ih (fun x hx => hds x (List.mem_cons_of_mem c hx)) hnext

/-- What is read is the value of the digits, and fits. -/
theorem parseMinor_eq_some {ds : List Char} (hds : ∀ c ∈ ds, c.isDigit = true) {minor n : ℕ}
    (hminor : minor < 2 ^ 63) :
    parseMinor ds minor = some n ↔ Nat.ofDigitChars 10 ds minor = n ∧ n < 2 ^ 63 := by
  constructor
  · intro h
    induction ds generalizing minor with
    | nil =>
      obtain rfl := Option.some.inj h
      exact ⟨Nat.ofDigitChars_nil, hminor⟩
    | cons c cs ih =>
      obtain ⟨-, hnine⟩ := digit_le (hds c List.mem_cons_self)
      rw [parseMinor] at h
      split_ifs at h with hover
      rw [Nat.ofDigitChars_cons, Nat.mul_comm 10 minor]
      exact ih (fun x hx => hds x (List.mem_cons_of_mem c hx)) (by omega) h
  · rintro ⟨rfl, hfits⟩
    exact parseMinor_of_digits hds hfits

/-! ## Reading amounts -/

/-- An amount is made of minor units within the range. -/
theorem ofMinor_eq_some {currency : Currency} {n : ℕ} {m : Money} :
    ofMinor currency n = some m ↔ m.currency = currency ∧ (m.minor : ℤ) = n := by
  unfold ofMinor
  constructor
  · intro h
    obtain ⟨minor, hminor, hm⟩ := Option.bind_eq_some_iff.mp h
    split_ifs at hm
    obtain rfl := Option.some.inj hm
    exact ⟨rfl, Bigint.ofInt?_eq_some.mp hminor⟩
  · rintro ⟨rfl, hn⟩
    rw [Bigint.ofInt?_eq_some.mpr hn, Option.bind_some, dif_pos m.nonneg]

/-- An amount is made of digits with no more of a fraction than the currency has, and is their
value. -/
theorem ofParts_eq_some {currency : Currency} {whole fraction : List Char} {m : Money} :
    ofParts currency whole fraction = some m ↔
      (whole ≠ [] ∧ (∀ c ∈ whole, c.isDigit = true) ∧ ∀ c ∈ fraction, c.isDigit = true) ∧
        m.currency = currency ∧ fraction.length ≤ m.currency.exponent ∧
        ((m.minor : ℤ) : ℚ) = decimalValue whole fraction * 10 ^ m.currency.exponent := by
  have hzeros : ∀ k, ∀ c ∈ List.replicate k '0', c.isDigit = true := by
    intro k c hc
    rw [(List.mem_replicate.mp hc).2]
    decide
  have hall : ∀ {l : List Char}, l.all Char.isDigit = false ↔ ¬∀ c ∈ l, c.isDigit = true := by
    intro l
    rw [← List.all_eq_true, Bool.not_eq_true]
  unfold ofParts
  simp only [hall]
  -- The guard fails exactly when the parts are not digits, too long or missing.
  split_ifs with hbad
  · constructor
    · intro h
      cases h
    · rintro ⟨⟨hne, hwhole, hfraction⟩, rfl, hlength, -⟩
      rcases hbad with h | h | h | h
      · exact absurd h hne
      · exact absurd hwhole h
      · omega
      · exact absurd hfraction h
  · rw [not_or, not_or, not_or, not_not, not_not] at hbad
    obtain ⟨hne, hwhole, hlength, hfraction⟩ := hbad
    rw [Nat.not_lt] at hlength
    have hdigits : ∀ c ∈ whole ++ fraction ++
        List.replicate (currency.exponent - fraction.length) '0', c.isDigit = true := by
      intro c hc
      simp only [List.mem_append] at hc
      rcases hc with (hc | hc) | hc
      · exact hwhole c hc
      · exact hfraction c hc
      · exact hzeros _ c hc
    -- The digits with their zeros are the value in minor units.
    have hvalue := @decimalValue_mul whole _ _ hlength
    rw [Option.bind_eq_some_iff]
    constructor
    · rintro ⟨n, hn, hm⟩
      obtain ⟨hvaln, -⟩ := (parseMinor_eq_some hdigits (Nat.two_pow_pos 63)).mp hn
      obtain ⟨rfl, hminor⟩ := ofMinor_eq_some.mp hm
      refine ⟨⟨hne, hwhole, hfraction⟩, rfl, hlength, ?_⟩
      rw [hvalue, hvaln, hminor]
      exact Int.cast_natCast n
    -- Conversely the value determines the number read.
    · rintro ⟨-, rfl, -, hminor⟩
      rw [hvalue] at hminor
      have hint : (m.minor : ℤ) = (Nat.ofDigitChars 10 (whole ++ fraction ++
          List.replicate (m.currency.exponent - fraction.length) '0') 0 : ℕ) := by
        exact_mod_cast hminor
      have hfits : (m.minor : ℤ) < 2 ^ 63 := m.minor.inRange.2
      generalize hn : Nat.ofDigitChars 10 (whole ++ fraction ++
        List.replicate (m.currency.exponent - fraction.length) '0') 0 = n at hint
      exact ⟨n, (parseMinor_eq_some hdigits (Nat.two_pow_pos 63)).mpr ⟨hn, by omega⟩,
        ofMinor_eq_some.mpr ⟨rfl, hint⟩⟩

/-- Digits have no point. -/
theorem dot_notMem {l : List Char} (h : ∀ c ∈ l, c.isDigit = true) : '.' ∉ l := fun hdot =>
  absurd (h '.' hdot) (by decide)

/-- The parts of a text that spells a number. -/
theorem Spells.splitOn {text : String} {whole fraction : List Char}
    (h : Spells text whole fraction) : (trimSpace text).toList.splitOn '.' =
      if fraction = [] then [whole] else [whole, fraction] := by
  have hparts : ∀ l ∈ if fraction = [] then [whole] else [whole, fraction], '.' ∉ l := by
    intro l hl
    split_ifs at hl
    · rw [List.mem_singleton.mp hl]
      exact dot_notMem h.whole_digits
    · simp only [List.mem_cons, List.not_mem_nil, or_false] at hl
      rcases hl with rfl | rfl
      · exact dot_notMem h.whole_digits
      · exact dot_notMem h.fraction_digits
  have hjoin : (trimSpace text).toList =
      ['.'].intercalate (if fraction = [] then [whole] else [whole, fraction]) := by
    rw [h.shape]
    split_ifs <;> simp [List.intercalate]
  rw [hjoin]
  exact List.splitOn_intercalate '.' hparts (by split_ifs <;> simp)

/-- A number has no sign. -/
theorem Spells.unsigned {text : String} {whole fraction : List Char}
    (h : Spells text whole fraction) : ¬((trimSpace text).toList = [] ∨
      (trimSpace text).toList.head? = some '+' ∨ (trimSpace text).toList.head? = some '-') := by
  obtain ⟨c, cs, hwhole⟩ := List.exists_cons_of_ne_nil h.whole_ne_nil
  have hc : c.isDigit = true := h.whole_digits c (by rw [hwhole]; exact List.mem_cons_self)
  rw [h.shape, hwhole]
  simp only [List.cons_append, List.head?_cons, Option.some.injEq, reduceCtorEq, false_or]
  rintro (rfl | rfl)
  · exact absurd hc (by decide)
  · exact absurd hc (by decide)

/-- The texts that are read, and as what. -/
theorem parse_eq_some {code text : String} {m : Money} :
    parse code text = some m ↔ lookupCurrency code = some m.currency ∧
      ∃ whole fraction, Spells text whole fraction ∧ fraction.length ≤ m.currency.exponent ∧
        ((m.minor : ℤ) : ℚ) = decimalValue whole fraction * 10 ^ m.currency.exponent := by
  -- The text is its parts with the dots between them.
  have hsplit : ['.'].intercalate ((trimSpace text).toList.splitOn '.') = (trimSpace text).toList :=
    List.intercalate_splitOn '.'
  constructor
  · intro h
    unfold parse at h
    rw [Option.bind_eq_bind, Option.bind_eq_some_iff] at h
    obtain ⟨currency, hcurrency, h⟩ := h
    dsimp only at h
    split_ifs at h
    split at h
    -- One part is a whole amount, two are an amount with a fraction.
    · next whole hwhole =>
      obtain ⟨⟨hne, hdigits, hnone⟩, rfl, hlength, hvalue⟩ := ofParts_eq_some.mp h
      rw [hwhole] at hsplit
      exact ⟨hcurrency, whole, [], ⟨by simpa [List.intercalate] using hsplit.symm, hne, hdigits,
        hnone⟩, hlength, hvalue⟩
    · next whole fraction hparts =>
      -- An empty fraction behind a dot is refused.
      split_ifs at h with hnil
      obtain ⟨⟨hne, hdigits, hfraction⟩, rfl, hlength, hvalue⟩ := ofParts_eq_some.mp h
      rw [hparts] at hsplit
      refine ⟨hcurrency, whole, fraction, ⟨?_, hne, hdigits, hfraction⟩, hlength, hvalue⟩
      rw [if_neg hnil, ← hsplit]
      simp [List.intercalate]
    · cases h
  · rintro ⟨hcurrency, whole, fraction, hspells, hlength, hvalue⟩
    have hread : ofParts m.currency whole fraction = some m := ofParts_eq_some.mpr
      ⟨⟨hspells.whole_ne_nil, hspells.whole_digits, hspells.fraction_digits⟩, rfl, hlength, hvalue⟩
    unfold parse
    rw [hcurrency]
    simp only [Option.bind_eq_bind, Option.bind_some]
    rw [if_neg hspells.unsigned, hspells.splitOn]
    by_cases hnil : fraction = []
    · rw [if_pos hnil]
      rw [hnil] at hread
      exact hread
    · rw [if_neg hnil]
      exact (if_neg hnil).trans hread

end Money

/-- **Amounts are read exactly.** The texts that are accepted for a currency are those that spell
a number with no more digits behind the point than the currency has and a value in minor units
within 64 bits, and that value is what is read; no step of reading digits leaves 64 bits; and the
amount that `String` puts behind the code is read as the money that it was written from. -/
theorem money_parsing_exact :
    (∀ code text m, Money.parse code text = some m ↔ lookupCurrency code = some m.currency ∧
      ∃ whole fraction, Money.Spells text whole fraction ∧
        fraction.length ≤ m.currency.exponent ∧
        ((m.minor : ℤ) : ℚ) = Money.decimalValue whole fraction * 10 ^ m.currency.exponent) ∧
    (∀ code text, (Money.parse code text).isSome = true ↔ ∃ currency,
      lookupCurrency code = some currency ∧ ∃ whole fraction, Money.Spells text whole fraction ∧
        fraction.length ≤ currency.exponent ∧
        Money.decimalValue whole fraction * 10 ^ currency.exponent ≤ 2 ^ 63 - 1) ∧
    (∀ ds : List Char, (∀ c ∈ ds, c.isDigit = true) →
      Money.parseMinorInt64 ds 0 = (Money.parseMinor ds 0).map fun n : ℕ => (n : ℤ)) ∧
    ∀ (m : Money) code, lookupCurrency code = some m.currency →
      m.string = m.currency.code ++ " " ++ m.amountText ∧
        Money.parse m.currency.code m.amountText = some m := by
  refine ⟨fun _ _ _ => Money.parse_eq_some, fun code text => ?_, fun ds hds => ?_,
    fun m code hcode => ⟨rfl, ?_⟩⟩
  · rw [Option.isSome_iff_exists]
    constructor
    -- The two directions exchange the bound on the value and the range of the type.
    · rintro ⟨m, hm⟩
      obtain ⟨hcurrency, whole, fraction, hspells, hlength, hvalue⟩ := Money.parse_eq_some.mp hm
      have hfits : (m.minor : ℤ) ≤ 2 ^ 63 - 1 := Int.le_sub_one_of_lt m.minor.inRange.2
      refine ⟨m.currency, hcurrency, whole, fraction, hspells, hlength, ?_⟩
      rw [← hvalue]
      exact_mod_cast hfits
    · rintro ⟨currency, hcurrency, whole, fraction, hspells, hlength, hfits⟩
      rw [Money.decimalValue_mul hlength] at hfits
      generalize hn : Nat.ofDigitChars 10 (whole ++ fraction ++
        List.replicate (currency.exponent - fraction.length) '0') 0 = n at hfits
      have hmax : (n : ℤ) ≤ 2 ^ 63 - 1 := by exact_mod_cast hfits
      have hinRange : -2 ^ 63 ≤ (n : ℤ) ∧ (n : ℤ) < 2 ^ 63 := ⟨by omega, by omega⟩
      refine ⟨⟨currency, ⟨n, hinRange⟩, Int.natCast_nonneg n⟩, Money.parse_eq_some.mpr
        ⟨hcurrency, whole, fraction, hspells, hlength, ?_⟩⟩
      rw [Money.decimalValue_mul hlength, hn]
      exact Int.cast_natCast n
  · exact Money.parseMinorInt64_eq hds (Nat.two_pow_pos 63)
  · unfold lookupCurrency at hcode
    exact Money.parse_amountText (lookupCurrency_supported _ (List.mem_of_find?_eq_some hcode))

example : (Money.parse " inr " " 92233720368547758.07 ").isSome = true := by decide +kernel

end LedgerSync
