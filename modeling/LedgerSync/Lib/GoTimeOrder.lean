import LedgerSync.Lib.GoTime

/-!
# The order of RFC 3339 texts

Texts of instants are compared as strings. Within a second a fraction without trailing zeros that
begins another is the smaller number with the greater text, since `Z` comes behind every digit and
behind the point; and the year 10000 comes behind the year 1000. Otherwise the order of the texts is
that of the instants (`rfc3339Nano_order`).
-/

namespace LedgerSync.Lib

/-! ## The order of texts -/

section Lex

variable {l l' r r' : List Char}

/-- Texts with the same first character are in the order of the rest. -/
theorem cons_lt_cons_same {c : Char} : c :: r < c :: r' ↔ r < r' := by
  rw [List.cons_lt_cons_iff]
  have hirrefl : ¬c < c := Char.lt_irrefl c
  tauto

/-- Texts of which none begins the other decide, whatever follows. -/
theorem append_lt_append_iff_of_not_prefix (h : ¬l <+: l') (h' : ¬l' <+: l) :
    l ++ r < l' ++ r' ↔ l < l' := by
  induction l generalizing l' with
  | nil => exact absurd (List.nil_prefix ..) h
  | cons a l ih =>
    rcases l' with _ | ⟨b, l'⟩
    · exact absurd (List.nil_prefix ..) h'
    rw [List.cons_append, List.cons_append, List.cons_lt_cons_iff, List.cons_lt_cons_iff]
    by_cases hab : a = b
    · subst hab
      rw [List.cons_prefix_cons] at h h'
      rw [ih (fun hp => h ⟨rfl, hp⟩) (fun hp => h' ⟨rfl, hp⟩)]
    · simp only [hab, false_and, or_false]

end Lex

/-- Numbers in a fixed number of digits decide, unless they are equal. -/
theorem padDigits_append_lt_iff {w a b : ℕ} (ha : a < 10 ^ w) (hb : b < 10 ^ w)
    {r r' : List Char} :
    padDigits w a ++ r < padDigits w b ++ r' ↔ a < b ∨ a = b ∧ r < r' := by
  have hlength : (padDigits w a).length = (padDigits w b).length := by simp
  have hdigits : ∀ k, ∀ c ∈ padDigits w k, c.isDigit = true := fun k c hc => isDigit_padDigits hc
  have hlt : padDigits w a < padDigits w b ↔ a < b := by
    rw [digits_lt_iff hlength (hdigits a) (hdigits b), ofDigitChars_padDigits ha,
      ofDigitChars_padDigits hb]
  have heq : padDigits w a = padDigits w b ↔ a = b := by
    constructor
    · intro h
      rw [← ofDigitChars_padDigits ha, h, ofDigitChars_padDigits hb]
    · rintro rfl
      rfl
  rw [append_lt_append_iff hlength, hlt, heq]

/-- The order of times of a day, in front of something else. -/
theorem clockText_append_lt_iff {a b : ℕ} (ha : a < 86400) (hb : b < 86400) {r r' : List Char} :
    clockText a ++ r < clockText b ++ r' ↔ a < b ∨ a = b ∧ r < r' := by
  simp only [clockText, List.append_assoc, List.cons_append]
  rw [padDigits_append_lt_iff (by omega) (by omega), cons_lt_cons_same,
    padDigits_append_lt_iff (by omega) (by omega), cons_lt_cons_same,
    padDigits_append_lt_iff (by omega) (by omega)]
  by_cases hr : r < r'
  · simp only [hr, and_true]
    omega
  · simp only [hr, and_false, or_false]
    omega

/-- The text of an instant behind its year. -/
def behindYear (n : ℤ) : List Char :=
  '-' :: (padDigits 2 (monthOfDay (dayOf n)) ++ '-' :: (padDigits 2 (monthDayOfDay (dayOf n)) ++
    'T' :: (clockText (clockOf n) ++ (fractionText (fractionOf n) ++ ['Z']))))

/-- A time is its year and what stands behind it. -/
theorem rfc3339Nano_eq (n : ℤ) :
    rfc3339Nano n = yearText (yearOfDay (dayOf n)) ++ behindYear n := by
  unfold rfc3339Nano stampBody dayText behindYear
  simp only [List.append_assoc, List.cons_append]
  rfl

/-- The second of an instant. -/
def secondOf (n : ℤ) : ℤ := n / 1000000000

variable {n m : ℤ}

/-- Within a year the seconds decide, and then the fractions. -/
theorem behindYear_lt_iff (hyear : yearOfDay (dayOf n) = yearOfDay (dayOf m)) :
    behindYear n < behindYear m ↔ secondOf n < secondOf m ∨ secondOf n = secondOf m ∧
      fractionText (fractionOf n) ++ ['Z'] < fractionText (fractionOf m) ++ ['Z'] := by
  -- The month and the day are bounded, so that both are written with two digits.
  have hn := isDate_yearOfDay (dayOf n)
  have hm := isDate_yearOfDay (dayOf m)
  have hdays := daysOf_lt_iff hn hm
  have hdays' := daysOf_lt_iff hm hn
  rw [daysOf_yearOfDay, daysOf_yearOfDay] at hdays hdays'
  have h31 := hn.day_le_31
  have h31' := hm.day_le_31
  have h12 := hn.month_le
  have h12' := hm.month_le
  unfold behindYear
  rw [cons_lt_cons_same, padDigits_append_lt_iff (by omega) (by omega), cons_lt_cons_same,
    padDigits_append_lt_iff (by omega) (by omega), cons_lt_cons_same,
    clockText_append_lt_iff (clockOf_lt n) (clockOf_lt m)]
  -- A second is a day and a clock, and the clock is below the length of a day.
  have hsecond : ∀ k, secondOf k = dayOf k * 86400 + clockOf k := by
    intro k
    unfold secondOf dayOf clockOf
    omega
  have hclock := clockOf_lt n
  have hclock' := clockOf_lt m
  rw [hsecond, hsecond]
  -- What is left is arithmetic over the month, the day and the clock.
  by_cases hfraction :
      fractionText (fractionOf n) ++ ['Z'] < fractionText (fractionOf m) ++ ['Z']
  · simp only [hfraction, and_true]
    omega
  · simp only [hfraction, and_false, or_false]
    omega

/-! ## The order of fractions -/

/-- The digits of a fraction without its trailing zeros. -/
def fractionDigits (f : ℕ) : List Char := (padDigits 9 f).rdropWhile (· == '0')

section Fractions

variable {f g : ℕ}

/-- The nine digits of a fraction are its digits and zeros. -/
theorem padDigits_eq_fractionDigits (f : ℕ) :
    ∃ k, padDigits 9 f = fractionDigits f ++ List.replicate k '0' := by
  refine ⟨((padDigits 9 f).rtakeWhile (· == '0')).length, ?_⟩
  have hsplit : fractionDigits f ++ (padDigits 9 f).rtakeWhile (· == '0') = padDigits 9 f := by
    rw [fractionDigits, List.rdropWhile, List.rtakeWhile, ← List.reverse_append,
      List.takeWhile_append_dropWhile, List.reverse_reverse]
  have hzeros : (padDigits 9 f).rtakeWhile (· == '0') =
      List.replicate ((padDigits 9 f).rtakeWhile (· == '0')).length '0' :=
    List.eq_replicate_iff.mpr ⟨rfl, fun c hc => by simpa using List.mem_rtakeWhile_imp hc⟩
  rw [← hzeros, hsplit]

/-- Fractions with the same digits are the same. -/
theorem fractionDigits_inj (hf : f < 10 ^ 9) (hg : g < 10 ^ 9)
    (h : fractionDigits f = fractionDigits g) : f = g := by
  obtain ⟨k, hk⟩ := padDigits_eq_fractionDigits f
  obtain ⟨l, hl⟩ := padDigits_eq_fractionDigits g
  have hlength : (fractionDigits f).length + k = 9 ∧ (fractionDigits g).length + l = 9 := by
    have hfive := congrArg List.length hk
    have hsix := congrArg List.length hl
    simp only [length_padDigits, List.length_append, List.length_replicate] at hfive hsix
    omega
  have hkl : k = l := by
    rw [h] at hlength
    omega
  rw [← ofDigitChars_padDigits hf, hk, h, hkl, ← hl, ofDigitChars_padDigits hg]

/-- No fraction has no digits. -/
theorem fractionDigits_zero : fractionDigits 0 = [] := by decide

/-- A fraction without digits is none. -/
theorem fractionDigits_eq_nil (hf : f < 10 ^ 9) : fractionDigits f = [] ↔ f = 0 := by
  constructor
  · intro h
    exact fractionDigits_inj hf (by decide) (h.trans fractionDigits_zero.symm)
  · rintro rfl
    exact fractionDigits_zero

/-- A fraction is a point and its digits. -/
theorem fractionText_eq (hf : f < 10 ^ 9) (h : fractionDigits f ≠ []) :
    fractionText f = '.' :: fractionDigits f := by
  rw [fractionText, if_neg (mt (fractionDigits_eq_nil hf).mpr h)]
  rfl

/-- The digits of a fraction are digits. -/
theorem isDigit_fractionDigits {c : Char} (h : c ∈ fractionDigits f) : c.isDigit = true :=
  isDigit_padDigits ((List.rdropWhile_prefix _ _).subset h)

/-- The numeric order of fractions is that of their nine digits. -/
theorem padDigits_nine_lt_iff (hf : f < 10 ^ 9) (hg : g < 10 ^ 9) :
    padDigits 9 f < padDigits 9 g ↔ f < g := by
  have h := @padDigits_append_lt_iff 9 f g hf hg [] []
  simpa using h

/-- Fractions of which none begins the other are ordered as their texts. -/
theorem fractionText_lt_iff (hf : f < 10 ^ 9) (hg : g < 10 ^ 9)
    (h : ¬fractionDigits f <+: fractionDigits g) (h' : ¬fractionDigits g <+: fractionDigits f) :
    fractionText f ++ ['Z'] < fractionText g ++ ['Z'] ↔ f < g := by
  have hfnil : fractionDigits f ≠ [] := by
    intro hnil
    exact h (hnil ▸ List.nil_prefix)
  have hgnil : fractionDigits g ≠ [] := by
    intro hnil
    exact h' (hnil ▸ List.nil_prefix)
  obtain ⟨k, hk⟩ := padDigits_eq_fractionDigits f
  obtain ⟨l, hl⟩ := padDigits_eq_fractionDigits g
  rw [fractionText_eq hf hfnil, fractionText_eq hg hgnil, List.cons_append, List.cons_append,
    cons_lt_cons_same, append_lt_append_iff_of_not_prefix h h', ← padDigits_nine_lt_iff hf hg, hk,
    hl, append_lt_append_iff_of_not_prefix h h']

/-- A fraction whose digits begin those of another is the smaller one, and has the greater text. -/
theorem fractionText_lt_of_prefix (hf : f < 10 ^ 9) (hg : g < 10 ^ 9)
    (h : fractionDigits f <+: fractionDigits g) (hne : fractionDigits f ≠ fractionDigits g) :
    f < g ∧ fractionText g ++ ['Z'] < fractionText f ++ ['Z'] := by
  -- One fraction shows all digits of the other and at least one more.
  obtain ⟨e, he⟩ := h
  obtain ⟨d, e, rfl⟩ : ∃ d e', e = d :: e' := by
    refine List.exists_cons_of_ne_nil ?_
    rintro rfl
    exact hne (by rw [← he, List.append_nil])
  have hdigit : d.isDigit = true := isDigit_fractionDigits (f := g) (by rw [← he]; simp)
  have hgnil : fractionDigits g ≠ [] := by
    rw [← he]
    simp
  constructor
  · obtain ⟨k, hk⟩ := padDigits_eq_fractionDigits f
    obtain ⟨l, hl⟩ := padDigits_eq_fractionDigits g
    rcases lt_trichotomy f g with hlt | rfl | hgt
    · exact hlt
    · exact absurd rfl hne
    · -- Zeros are no more than any other digits.
      rw [← padDigits_nine_lt_iff hg hf, hk, hl, ← he, List.append_assoc,
        append_lt_append_iff rfl] at hgt
      have hzeros := hgt.resolve_left (List.lt_irrefl _)
      have hlength : (d :: e ++ List.replicate l '0').length = (List.replicate k '0').length := by
        have hfive := congrArg List.length hk
        have hsix := congrArg List.length hl
        rw [← he] at hsix
        simp only [length_padDigits, List.length_append, List.length_replicate,
          List.length_cons] at hfive hsix ⊢
        omega
      have hmore : ∀ c ∈ d :: e ++ List.replicate l '0', c.isDigit = true := by
        intro c hc
        rcases List.mem_append.mp hc with hc | hc
        · exact isDigit_fractionDigits (f := g) (by rw [← he]; exact List.mem_append_right _ hc)
        · rw [List.eq_of_mem_replicate hc]
          rfl
      have hzero : ∀ c ∈ List.replicate k '0', c.isDigit = true := by
        intro c hc
        rw [List.eq_of_mem_replicate hc]
        rfl
      have hvalue := (digits_lt_iff hlength hmore hzero).mp hzeros.2
      rw [Nat.ofDigitChars_replicate_zero] at hvalue
      omega
  -- The shorter text goes on with its final letter, which comes after every digit.
  · have hdot : '.' < 'Z' := by decide
    have hd : d < 'Z' := by
      simp only [Char.isDigit, Bool.and_eq_true, decide_eq_true_eq] at hdigit
      have hle : d.toNat ≤ 57 := hdigit.2
      change d.toNat < 90
      omega
    rw [fractionText_eq hg hgnil]
    by_cases hfnil : fractionDigits f = []
    · rw [(fractionDigits_eq_nil hf).mp hfnil]
      exact List.cons_lt_cons_iff.mpr (.inl hdot)
    · rw [fractionText_eq hf hfnil, ← he, List.cons_append, List.cons_append, cons_lt_cons_same,
        List.append_assoc, append_lt_append_iff rfl]
      exact .inr ⟨rfl, List.cons_lt_cons_iff.mpr (.inl hd)⟩

end Fractions

/-! ## Texts against instants -/

/-- The place of a year among the texts of the years from -1 to 10000: the text of 10000 comes
behind that of 1000. -/
def yearRank (y : ℤ) : ℤ := if y = 10000 then 2001 else 2 * y

/-- The text of a year of lower rank comes first. -/
theorem yearText_lt_of_rank {y y' : ℤ} (hy : -1 ≤ y) (hy' : -1 ≤ y') (hle : y ≤ 10000)
    (hle' : y' ≤ 10000) (h : yearRank y < yearRank y') (r r' : List Char) :
    yearText y ++ '-' :: r < yearText y' ++ '-' :: r' := by
  have hlast : yearText 10000 = padDigits 4 1000 ++ ['0'] := by decide
  have hminus : '-' < '0' := by decide
  have hdigit : ∀ c : Char, c.isDigit = true → '-' < c := by
    intro c hc
    simp only [Char.isDigit, Bool.and_eq_true, decide_eq_true_eq] at hc
    have hge : 48 ≤ c.toNat := hc.1
    change 45 < c.toNat
    omega
  have hfour : ∀ a b : ℤ, 0 ≤ a → a ≤ 9999 → 0 ≤ b → b ≤ 9999 → a < b → ∀ l l' : List Char,
      padDigits 4 a.toNat ++ l < padDigits 4 b.toNat ++ l' := by
    intro a b ha ha' hb hb' hab l l'
    exact (padDigits_append_lt_iff (by omega) (by omega)).mpr (.inl (by omega))
  unfold yearRank at h
  by_cases hneg : y < 0
  · -- A sign comes before every digit.
    have hy1 : y = -1 := by omega
    obtain ⟨rest, hrest⟩ : ∃ rest, yearText y = '-' :: rest := by
      rw [yearText, if_pos hneg]
      exact ⟨_, rfl⟩
    have hnonneg : ¬y' < 0 := by
      split_ifs at h <;> omega
    have hhead : ∃ c l, yearText y' = c :: l ∧ c.isDigit = true := by
      by_cases hmax : y' = 10000
      · exact ⟨'1', _, by rw [hmax]; exact hlast, by decide⟩
      · rw [yearText_eq_padDigits (by omega) (by omega)]
        have hlength := length_padDigits 4 y'.toNat
        obtain ⟨c, l, hcl⟩ : ∃ c l, padDigits 4 y'.toNat = c :: l :=
          List.exists_cons_of_ne_nil (by rw [← List.length_pos_iff, hlength]; decide)
        exact ⟨c, l, hcl, isDigit_padDigits (w := 4) (n := y'.toNat) (by rw [hcl]; simp)⟩
    obtain ⟨c, l, hcl, hc⟩ := hhead
    rw [hrest, hcl, List.cons_append, List.cons_append]
    exact List.cons_lt_cons_iff.mpr (.inl (hdigit c hc))
  -- From here on neither year has a sign.
  · by_cases hmax : y = 10000
    · subst hmax
      rw [if_pos rfl] at h
      have hne : y' ≠ 10000 := by
        rintro rfl
        rw [if_pos rfl] at h
        omega
      rw [if_neg hne] at h
      rw [hlast, yearText_eq_padDigits (by omega) (by omega), List.append_assoc]
      exact hfour 1000 y' (by omega) (by omega) (by omega) (by omega) (by omega) _ _
    · rw [if_neg hmax] at h
      rw [yearText_eq_padDigits (by omega) (by omega)]
      -- The year of five digits begins as the year 1000 does.
      by_cases hmax' : y' = 10000
      · subst hmax'
        rw [if_pos rfl] at h
        rw [hlast, List.append_assoc, padDigits_append_lt_iff (by omega) (by omega)]
        by_cases hthousand : y = 1000
        · subst hthousand
          exact .inr ⟨rfl, List.cons_lt_cons_iff.mpr (.inl hminus)⟩
        · exact .inl (by omega)
      · rw [if_neg hmax'] at h
        rw [yearText_eq_padDigits (by omega) (by omega)]
        exact hfour y y' (by omega) (by omega) (by omega) (by omega) (by omega) _ _

/-- The texts of two years are ordered as their ranks, whatever follows. -/
theorem yearText_lt_iff {y y' : ℤ} (hy : -1 ≤ y) (hy' : -1 ≤ y') (hle : y ≤ 10000)
    (hle' : y' ≤ 10000) (hne : y ≠ y') (r r' : List Char) :
    yearText y ++ '-' :: r < yearText y' ++ '-' :: r' ↔ yearRank y < yearRank y' := by
  constructor
  · intro h
    by_contra hrank
    have hback : yearRank y' < yearRank y := by
      unfold yearRank at hrank ⊢
      split_ifs at hrank ⊢ <;> omega
    exact List.lt_irrefl _ (List.lt_trans h (yearText_lt_of_rank hy' hy hle' hle hback r' r))
  · intro h
    exact yearText_lt_of_rank hy hy' hle hle' h r r'

/-- A year of four digits after 1000 and the year 10000, whose texts are in the wrong order. -/
def YearsCross (y y' : ℤ) : Prop :=
  (y = 10000 ∧ 1000 < y' ∧ y' < 10000) ∨ (y' = 10000 ∧ 1000 < y ∧ y < 10000)

/-- Two fractions that are equal, or of which none begins the other. -/
def FractionsApart (f g : ℕ) : Prop :=
  fractionDigits f = fractionDigits g ∨
    ¬fractionDigits f <+: fractionDigits g ∧ ¬fractionDigits g <+: fractionDigits f

/-- The instants whose texts are in their order. -/
def TextOrdered (n m : ℤ) : Prop :=
  ¬YearsCross (yearOfDay (dayOf n)) (yearOfDay (dayOf m)) ∧
    (secondOf n = secondOf m → FractionsApart (fractionOf n) (fractionOf m))

section Instants

variable {n m : ℤ}

/-- A time is its second and its fraction. -/
theorem eq_second_fraction (n : ℤ) : n = secondOf n * 1000000000 + fractionOf n := by
  unfold secondOf fractionOf
  omega

/-- An instant of an earlier year comes first. -/
theorem lt_of_yearOfDay_lt (h : yearOfDay (dayOf n) < yearOfDay (dayOf m)) : n < m := by
  have hdays := daysOf_lt_of_year (isDate_yearOfDay (dayOf n)) (isDate_yearOfDay (dayOf m)) h
  rw [daysOf_yearOfDay, daysOf_yearOfDay] at hdays
  unfold dayOf at hdays
  omega

/-- Within a second, the texts of two instants are in their order exactly when their fractions are
apart. -/
theorem text_order_fraction {f g : ℕ} (hf : f < 10 ^ 9) (hg : g < 10 ^ 9) :
    (¬fractionText g ++ ['Z'] < fractionText f ++ ['Z'] ↔ f ≤ g) ↔ FractionsApart f g := by
  unfold FractionsApart
  by_cases heq : fractionDigits f = fractionDigits g
  · have hfg := fractionDigits_inj hf hg heq
    subst hfg
    simp
  -- Where one goes on after the other, the texts stand the wrong way round.
  by_cases hp : fractionDigits f <+: fractionDigits g
  · obtain ⟨hlt, htext⟩ := fractionText_lt_of_prefix hf hg hp heq
    simp only [htext, hp, heq, not_true_eq_false, false_and, or_false, false_iff, iff_false]
    omega
  by_cases hp' : fractionDigits g <+: fractionDigits f
  · obtain ⟨hlt, htext⟩ := fractionText_lt_of_prefix hg hf hp' (Ne.symm heq)
    have hasymm : ¬fractionText g ++ ['Z'] < fractionText f ++ ['Z'] :=
      fun h => List.lt_irrefl _ (List.lt_trans h htext)
    simp only [hasymm, hp, hp', heq, not_false_eq_true, not_true_eq_false, and_false, or_false,
      true_iff, iff_false]
    omega
  -- Otherwise a digit decides, for the texts as for the numbers.
  · have horder := fractionText_lt_iff hg hf hp' hp
    simp only [horder, hp, hp', not_false_eq_true, and_self, or_true, iff_true]
    omega

/-- The text of one instant is not behind that of another exactly when it is not later, if and only
if the instants are ones whose texts are in their order. -/
theorem rfc3339Nano_order (hn : -1 ≤ yearOfDay (dayOf n)) (hm : -1 ≤ yearOfDay (dayOf m))
    (hn' : yearOfDay (dayOf n) ≤ 10000) (hm' : yearOfDay (dayOf m) ≤ 10000) :
    (¬rfc3339Nano m < rfc3339Nano n ↔ n ≤ m) ↔ TextOrdered n m := by
  unfold TextOrdered
  rw [rfc3339Nano_eq, rfc3339Nano_eq]
  -- With the same year the texts differ first in the seconds.
  by_cases hyear : yearOfDay (dayOf n) = yearOfDay (dayOf m)
  · have hcross : ¬YearsCross (yearOfDay (dayOf n)) (yearOfDay (dayOf n)) := by
      unfold YearsCross
      omega
    have hsplit := eq_second_fraction n
    have hsplit' := eq_second_fraction m
    have hfn := fractionOf_lt n
    have hfm := fractionOf_lt m
    rw [← hyear, append_lt_append_iff rfl, behindYear_lt_iff hyear.symm]
    have hirrefl := List.lt_irrefl (yearText (yearOfDay (dayOf n)))
    by_cases hsecond : secondOf n = secondOf m
    · have horder := text_order_fraction hfn hfm
      have hle : n ≤ m ↔ fractionOf n ≤ fractionOf m := by omega
      simp only [hirrefl, hsecond, lt_self_iff_false, false_or, true_and, hcross, hle, horder,
        not_false_eq_true, true_implies]
    · have hle : n ≤ m ↔ ¬secondOf m < secondOf n := by omega
      simp only [hirrefl, Ne.symm hsecond, hsecond, false_or, true_and, false_and, or_false, hcross,
        hle, not_false_eq_true, IsEmpty.forall_iff, and_self, iff_self]
  -- Other years are compared as the texts of the years are.
  · have hsecond : secondOf n ≠ secondOf m := by
      intro h
      apply hyear
      have hday : dayOf n = dayOf m := by
        unfold secondOf at h
        unfold dayOf
        omega
      rw [hday]
    have htext := yearText_lt_iff hm hn hm' hn' (Ne.symm hyear)
      (behindYear m).tail (behindYear n).tail
    have hlt : yearOfDay (dayOf n) < yearOfDay (dayOf m) → n < m := lt_of_yearOfDay_lt
    have hgt : yearOfDay (dayOf m) < yearOfDay (dayOf n) → m < n := lt_of_yearOfDay_lt
    have hcons : ∀ k, behindYear k = '-' :: (behindYear k).tail := fun _ => rfl
    rw [hcons n, hcons m, htext]
    unfold yearRank YearsCross
    split_ifs <;> omega

end Instants

end LedgerSync.Lib
