import LedgerSync.Lib.Calendar

/-!
# Instants of any year

An instant is a number of nanoseconds before or after `0001-01-01T00:00:00Z`. `rfc3339Nano` is its
text in UTC with a trimmed fraction, in which a year after 9999 has more than four digits and a year
before 0 a sign; `parseGoTime` reads what `time.Parse` accepts for RFC 3339.
-/

namespace LedgerSync.Lib

/-! ## Texts -/

/-- The year of the day that is `d` days after `0001-01-01`. The calendar repeats after 146097
days. -/
def yearOfDay (d : ℤ) : ℤ := (Civil.ofDays (d % 146097).toNat).year + 400 * (d / 146097)

/-- `appendInt(b, year, 4)`. -/
def yearText (y : ℤ) : List Char :=
  (if y < 0 then ['-'] else []) ++
    if y.natAbs < 10000 then padDigits 4 y.natAbs else Nat.toDigits 10 y.natAbs

/-- `YYYY-MM-DD` of a day. -/
def dayText (d : ℤ) : List Char :=
  let c := Civil.ofDays (d % 146097).toNat
  yearText (yearOfDay d) ++ '-' :: (padDigits 2 c.month ++ '-' :: padDigits 2 c.day)

/-- The trimmed fraction of a second in nanoseconds, and nothing when it is zero. -/
def fractionText (f : ℕ) : List Char :=
  if f = 0 then [] else '.' :: (padDigits 9 f).rdropWhile (· == '0')

/-- The day of an instant. -/
def dayOf (n : ℤ) : ℤ := n / 86400000000000

/-- The second of its day. -/
def clockOf (n : ℤ) : ℕ := (n % 86400000000000).toNat / 1000000000

/-- The fraction of its second. -/
def fractionOf (n : ℤ) : ℕ := (n % 1000000000).toNat

/-- The text before the `Z`. -/
def stampBody (n : ℤ) : List Char :=
  dayText (dayOf n) ++ 'T' :: (clockText (clockOf n) ++ fractionText (fractionOf n))

/-- `t.UTC().Format(time.RFC3339Nano)`. -/
def rfc3339Nano (n : ℤ) : List Char := stampBody n ++ ['Z']

/-- What a text before its `Z` is made of. -/
def IsStampChar (c : Char) : Prop := c.isDigit = true ∨ c ∈ ['-', ':', '.', 'T']

/-- The text of a year has only characters of stamps. -/
theorem isStampChar_yearText {y : ℤ} {c : Char} (h : c ∈ yearText y) : IsStampChar c := by
  rw [yearText, List.mem_append] at h
  rcases h with h | h
  · split at h
    · rw [List.mem_singleton.mp h]
      exact .inr (by decide)
    · cases h
  · split at h
    · exact .inl (isDigit_padDigits h)
    · exact .inl (Nat.isDigit_of_mem_toDigits (by decide) (by decide) h)

/-- The text of a fraction has only characters of stamps. -/
theorem isStampChar_fractionText {f : ℕ} {c : Char} (h : c ∈ fractionText f) : IsStampChar c := by
  unfold fractionText at h
  split at h
  · cases h
  · rcases List.mem_cons.mp h with rfl | h
    · exact .inr (by decide)
    · exact .inl (isDigit_padDigits ((List.rdropWhile_prefix _ _).subset h))

/-- The text before the `Z` has digits and separators only. -/
theorem isStampChar_stampBody {n : ℤ} {c : Char} (h : c ∈ stampBody n) : IsStampChar c := by
  have hpad : ∀ {w k : ℕ}, c ∈ padDigits w k → IsStampChar c := fun h => .inl (isDigit_padDigits h)
  have hsep : ∀ {s : Char}, s ∈ ['-', ':', '.', 'T'] → c = s → IsStampChar c :=
    fun hs h => .inr (h ▸ hs)
  simp only [stampBody, dayText, clockText, List.mem_append, List.mem_cons] at h
  rcases h with ((h | h | h | h | h) | h | ((h | h | h | h | h) | h))
  · exact isStampChar_yearText h
  · exact hsep (by decide) h
  · exact hpad h
  · exact hsep (by decide) h
  · exact hpad h
  · exact hsep (by decide) h
  · exact hpad h
  · exact hsep (by decide) h
  · exact hpad h
  · exact hsep (by decide) h
  · exact hpad h
  · exact isStampChar_fractionText h

/-! ## Dates of any year -/

/-- The number of days from `0001-01-01` to a date of any year. -/
def daysOf (y : ℤ) (month day : ℕ) : ℤ :=
  let y' : ℤ := if month ≤ 2 then y - 1 else y
  let mp : ℤ := if month ≤ 2 then month + 9 else (month : ℤ) - 3
  y' * 365 + y' / 4 - y' / 100 + y' / 400 + (153 * mp + 2) / 5 + (day : ℤ) - 1 - 306

/-- The month of a day. -/
def monthOfDay (d : ℤ) : ℕ := (Civil.ofDays (d % 146097).toNat).month

/-- The day of the month. -/
def monthDayOfDay (d : ℤ) : ℕ := (Civil.ofDays (d % 146097).toNat).day

/-- Four hundred years later it is 146097 days later. -/
theorem daysOf_add_cycles (y k : ℤ) (month day : ℕ) :
    daysOf (y + 400 * k) month day = daysOf y month day + 146097 * k := by
  unfold daysOf
  split_ifs
  · dsimp only
    omega
  · dsimp only
    omega

/-- The day of a date is counted from its year, month and day. -/
theorem Civil.toDays_eq (c : Civil) : c.toDays = daysOf c.year c.month c.day := rfl

/-- The date of a day has its number. -/
theorem daysOf_yearOfDay (d : ℤ) : daysOf (yearOfDay d) (monthOfDay d) (monthDayOfDay d) = d := by
  have hcycle : (Civil.ofDays (d % 146097).toNat).toDays = ((d % 146097).toNat : ℤ) :=
    Civil.toDays_ofDays _
  have hnonneg : 0 ≤ d % 146097 := Int.emod_nonneg _ (by decide)
  unfold yearOfDay monthOfDay monthDayOfDay
  rw [daysOf_add_cycles, ← Civil.toDays_eq, hcycle, Int.toNat_of_nonneg hnonneg]
  omega

/-- What makes a month and a day a date of a year. -/
structure IsDate (y : ℤ) (month day : ℕ) : Prop where
  month_pos : 1 ≤ month
  month_le : month ≤ 12
  day_pos : 1 ≤ day
  day_le : day ≤ daysIn month (y % 400).toNat

/-- The year, the month and the day of a day are a date. -/
theorem isDate_yearOfDay (d : ℤ) : IsDate (yearOfDay d) (monthOfDay d) (monthDayOfDay d) := by
  obtain ⟨hm1, hm, hd1, hd⟩ := Civil.ofDays_valid (d % 146097).toNat
  refine ⟨hm1, hm, hd1, ?_⟩
  -- Whether a year is a leap year repeats with the calendar.
  have hleap : isLeap (yearOfDay d % 400).toNat ↔
      isLeap (Civil.ofDays (d % 146097).toNat).year := by
    unfold isLeap yearOfDay
    omega
  have hdays : daysIn (monthOfDay d) (yearOfDay d % 400).toNat =
      daysIn (monthOfDay d) (Civil.ofDays (d % 146097).toNat).year := by
    unfold daysIn
    simp only [hleap]
  rw [hdays]
  exact hd

/-- No month has a 32nd day. -/
theorem IsDate.day_le_31 {y : ℤ} {month day : ℕ} (h : IsDate y month day) : day ≤ 31 := by
  have hle := h.day_le
  have hmax : daysIn month (y % 400).toNat ≤ 31 := by
    unfold daysIn
    split_ifs <;> omega
  omega

section Order

variable {y y' : ℤ} {month month' day day' : ℕ}

/-- A date of an earlier year comes first. -/
theorem daysOf_lt_of_year (h : IsDate y month day) (h' : IsDate y' month' day') (hy : y < y') :
    daysOf y month day < daysOf y' month' day' := by
  have hday := h.day_le_31
  obtain ⟨hm1, hm, hd1, -⟩ := h
  obtain ⟨hm1', hm', hd1', -⟩ := h'
  -- The days before a year grow with it, and by 365 at least.
  have hyears : ∀ a b : ℤ, a ≤ b → a * 365 + a / 4 - a / 100 + a / 400 ≤
      b * 365 + b / 4 - b / 100 + b / 400 := by
    intro a b hab
    omega
  have hfirst := hyears y (y' - 1) (by omega)
  have hstep : ∀ a : ℤ, (a - 1) * 365 + (a - 1) / 4 - (a - 1) / 100 + (a - 1) / 400 + 365 ≤
      a * 365 + a / 4 - a / 100 + a / 400 := by
    intro a
    omega
  have hthis := hstep y
  have hnext := hstep y'
  unfold daysOf
  dsimp only
  generalize y * 365 + y / 4 - y / 100 + y / 400 = s at *
  generalize (y - 1) * 365 + (y - 1) / 4 - (y - 1) / 100 + (y - 1) / 400 = r at *
  generalize y' * 365 + y' / 4 - y' / 100 + y' / 400 = s' at *
  generalize (y' - 1) * 365 + (y' - 1) / 4 - (y' - 1) / 100 + (y' - 1) / 400 = r' at *
  -- At most 366 days pass within a year.
  split_ifs <;> omega

/-- A date of an earlier month of a year comes first. -/
theorem daysOf_lt_of_month (h : IsDate y month day) (h' : IsDate y month' day')
    (hm : month < month') : daysOf y month day < daysOf y month' day' := by
  obtain ⟨hm1, -, hd1, hd⟩ := h
  obtain ⟨-, hm12, hd1', -⟩ := h'
  -- The day of a month is at most its length, which for February depends on the year.
  have hfebruary : month = 2 → day ≤ 28 ∨ day = 29 ∧ y % 4 = 0 ∧ (y % 100 ≠ 0 ∨ y % 400 = 0) := by
    rintro rfl
    rw [daysIn, if_pos rfl] at hd
    by_cases hleap : isLeap (y % 400).toNat
    · rw [if_pos hleap] at hd
      unfold isLeap at hleap
      omega
    · rw [if_neg hleap] at hd
      omega
  have hshort : month ≠ 2 →
      day ≤ 31 ∧ (month = 4 ∨ month = 6 ∨ month = 9 ∨ month = 11 → day ≤ 30) := by
    intro h2
    rw [daysIn, if_neg h2] at hd
    split_ifs at hd <;> omega
  -- The months left are few enough to compare one by one.
  have hmonth : month ≤ 11 := by omega
  unfold daysOf
  dsimp only
  interval_cases month <;> split_ifs <;> omega

/-- The order of dates is the order of their numbers. -/
theorem daysOf_lt_iff (h : IsDate y month day) (h' : IsDate y' month' day') :
    daysOf y month day < daysOf y' month' day' ↔
      y < y' ∨ y = y' ∧ (month < month' ∨ month = month' ∧ day < day') := by
  have hdays : ∀ d d' : ℕ, daysOf y month d < daysOf y month d' ↔ d < d' := by
    intro d d'
    unfold daysOf
    dsimp only
    omega
  rcases lt_trichotomy y y' with hy | rfl | hy
  · have hlt := daysOf_lt_of_year h h' hy
    omega
  · rcases lt_trichotomy month month' with hm | rfl | hm
    · have hlt := daysOf_lt_of_month h h' hm
      omega
    · have hlt := hdays day day'
      omega
    · have hlt := daysOf_lt_of_month h' h hm
      omega
  · have hlt := daysOf_lt_of_year h' h hy
    omega

end Order

/-- The year of a day is at least `y` from the first of January of `y` on. -/
theorem le_yearOfDay {y d : ℤ} : y ≤ yearOfDay d ↔ daysOf y 1 1 ≤ d := by
  have hfirst : IsDate y 1 1 := ⟨by decide, by decide, by decide, by simp [daysIn]⟩
  have hdate := isDate_yearOfDay d
  have hlt := daysOf_lt_iff hdate hfirst
  have hpos := hdate.month_pos
  have hday := hdate.day_pos
  rw [daysOf_yearOfDay] at hlt
  omega

/-! ## Reading -/

/-- `getnum` of the hour: one digit or two, below 24. -/
def readHour : List Char → Option (ℕ × List Char)
  | c :: d :: rest =>
    if c.isDigit ∧ ¬d.isDigit then some (c.toNat - '0'.toNat, d :: rest)
    else readBetween 2 0 23 (c :: d :: rest)
  | _ => none

/-- A time of day in seconds since midnight, and what follows it. -/
def readGoClock (cs : List Char) : Option (ℕ × List Char) := do
  let (hour, cs) ← readHour cs
  let cs ← readChar ':' cs
  let (minute, cs) ← readBetween 2 0 59 cs
  let cs ← readChar ':' cs
  let (second, cs) ← readBetween 2 0 59 cs
  some ((hour * 60 + minute) * 60 + second, cs)

/-- A fraction behind a point or a comma. -/
def readGoFraction : List Char → Option (ℕ × List Char)
  | ',' :: rest => readFraction ('.' :: rest)
  | cs => readFraction cs

/-- The zone in minutes. Offsets of 24 hours and of 60 minutes are accepted. -/
def readGoZone (cs : List Char) : Option ℤ :=
  if cs = ['Z'] then some 0
  else match cs with
    | [] => none
    | sign :: rest => do
      let (hh, rest) ← readBetween 2 0 24 rest
      let rest ← readChar ':' rest
      let (mm, rest) ← readBetween 2 0 60 rest
      if rest = [] ∧ sign = '+' then some (60 * hh + mm : ℤ)
      else if rest = [] ∧ sign = '-' then some (-(60 * hh + mm : ℤ))
      else none

/-- `time.Parse(time.RFC3339, value)`, as an instant. -/
def parseGoTime (cs : List Char) : Option ℤ := do
  let (date, cs) ← readDate cs
  let cs ← readChar 'T' cs
  let (secs, cs) ← readGoClock cs
  let (nanos, cs) ← readGoFraction cs
  let offset ← readGoZone cs
  some ((date.toDays * 86400 + secs - offset * 60) * 1000000000 + nanos)

/-- The instants whose text `time.Parse` reads. -/
def HasWrittenYear (n : ℤ) : Prop := 0 ≤ yearOfDay (dayOf n) ∧ yearOfDay (dayOf n) ≤ 9999

/-- Whether a time has a year of four digits can be decided. -/
instance HasWrittenYear.decidable (n : ℤ) : Decidable (HasWrittenYear n) :=
  inferInstanceAs (Decidable (0 ≤ yearOfDay (dayOf n) ∧ yearOfDay (dayOf n) ≤ 9999))

/-- An hour of two digits is read back. -/
theorem readHour_padDigits {h : ℕ} (hh : h < 24) (cs : List Char) :
    readHour (padDigits 2 h ++ cs) = some (h, cs) := by
  have hread : readBetween 2 0 23 (padDigits 2 h ++ cs) = some (h, cs) :=
    readBetween_padDigits (by decide) (by omega) (by omega) (by omega) cs
  obtain ⟨c, d, hcd⟩ : ∃ c d, padDigits 2 h = [c, d] := ⟨_, _, rfl⟩
  have hd : d.isDigit = true := isDigit_padDigits (w := 2) (n := h) (by rw [hcd]; simp)
  rw [hcd] at hread ⊢
  show readHour (c :: d :: cs) = _
  rw [readHour, if_neg (by simp [hd])]
  exact hread

/-- The time of the day is read back from its text. -/
theorem readGoClock_clockText {secs : ℕ} (h : secs < 86400) (cs : List Char) :
    readGoClock (clockText secs ++ cs) = some (secs, cs) := by
  simp only [readGoClock, clockText, List.append_assoc, List.cons_append]
  rw [readHour_padDigits (by omega)]
  simp only [Option.bind_eq_bind, Option.bind_some, readChar_cons]
  rw [readBetween_padDigits (by decide) (by omega) (Nat.zero_le _) (by omega)]
  simp only [Option.bind_some, readChar_cons]
  rw [readBetween_padDigits (by decide) (by omega) (Nat.zero_le _) (by omega), Option.bind_some]
  congr 2
  omega

/-- A fraction is read back from its text, up to the zone. -/
theorem readGoFraction_fractionText {f : ℕ} (h : f < 10 ^ 9) :
    readGoFraction (fractionText f ++ ['Z']) = some (f, ['Z']) := by
  unfold fractionText
  by_cases h0 : f = 0
  · subst h0
    decide
  · have hpoint : ∀ cs, readGoFraction ('.' :: cs) = readFraction ('.' :: cs) := fun _ => rfl
    rw [if_neg h0, List.cons_append, hpoint]
    exact readFraction_trimmed h0 h (by decide) []

/-- A day has 86400 seconds. -/
theorem clockOf_lt (n : ℤ) : clockOf n < 86400 := by
  unfold clockOf
  omega

/-- A second has 10⁹ nanoseconds. -/
theorem fractionOf_lt (n : ℤ) : fractionOf n < 10 ^ 9 := by
  unfold fractionOf
  omega

/-- A year of up to four digits is written with four. -/
theorem yearText_eq_padDigits {y : ℤ} (h0 : 0 ≤ y) (h : y ≤ 9999) :
    yearText y = padDigits 4 y.toNat := by
  rw [yearText, if_neg (by omega), if_pos (by omega), List.nil_append]
  congr 1
  omega

/-- The date of a day in a year of four digits is read back. -/
theorem readDate_dayText {d : ℤ} (h0 : 0 ≤ yearOfDay d) (h : yearOfDay d ≤ 9999) (cs : List Char) :
    ∃ c : Civil, readDate (dayText d ++ cs) = some (c, cs) ∧ c.toDays = d := by
  have hdate := isDate_yearOfDay d
  have hyear := yearText_eq_padDigits h0 h
  -- The reader takes the year modulo 400, which decides leap years as the year does.
  have hleap : isLeap (yearOfDay d % 400).toNat ↔ isLeap (yearOfDay d).toNat := by
    unfold isLeap
    omega
  have hdays : daysIn (monthOfDay d) (yearOfDay d % 400).toNat =
      daysIn (monthOfDay d) (yearOfDay d).toNat := by
    unfold daysIn
    simp only [hleap]
  refine ⟨⟨(yearOfDay d).toNat, monthOfDay d, monthDayOfDay d⟩, ?_, ?_⟩
  · have htext : dayText d = dateText ⟨(yearOfDay d).toNat, monthOfDay d, monthDayOfDay d⟩ := by
      unfold dayText dateText
      rw [hyear]
      rfl
    rw [htext]
    have hfour : (yearOfDay d).toNat < 10000 := by omega
    exact @readDate_dateText ⟨(yearOfDay d).toNat, monthOfDay d, monthDayOfDay d⟩ hfour
      hdate.month_pos hdate.month_le hdate.day_pos (hdate.day_le.trans hdays.le) cs
  -- The number of days is that of the date itself.
  · have hnumber := daysOf_yearOfDay d
    show daysOf ((yearOfDay d).toNat : ℤ) (monthOfDay d) (monthDayOfDay d) = d
    rw [Int.toNat_of_nonneg h0]
    exact hnumber

/-- The text of an instant in a year of four digits is read back. -/
theorem parseGoTime_rfc3339Nano {n : ℤ} (h : HasWrittenYear n) :
    parseGoTime (rfc3339Nano n) = some n := by
  obtain ⟨c, hread, hdays⟩ := readDate_dayText h.1 h.2
    ('T' :: (clockText (clockOf n) ++ (fractionText (fractionOf n) ++ ['Z'])))
  have hz : readGoZone ['Z'] = some 0 := by decide
  have htext : rfc3339Nano n = dayText (dayOf n) ++
      'T' :: (clockText (clockOf n) ++ (fractionText (fractionOf n) ++ ['Z'])) := by
    unfold rfc3339Nano stampBody
    simp only [List.append_assoc, List.cons_append]
  simp only [parseGoTime, htext, hread, Option.bind_eq_bind, Option.bind_some, readChar_cons,
    readGoClock_clockText (clockOf_lt n), readGoFraction_fractionText (fractionOf_lt n), hz, hdays,
    Option.some.injEq]
  unfold dayOf clockOf fractionOf
  omega

/-- A text that begins with a sign or with five digits is refused. -/
theorem readDate_yearText {y : ℤ} (h : y < 0 ∨ 9999 < y) (cs : List Char) :
    readDate (yearText y ++ cs) = none := by
  -- A negative year starts with a minus, a large one has a fifth digit before its hyphen.
  rcases h with h | h
  · obtain ⟨rest, hrest⟩ : ∃ rest, yearText y = '-' :: rest := by
      rw [yearText, if_pos h]
      exact ⟨_, rfl⟩
    have hdigits : readDigits 4 ('-' :: (rest ++ cs)) = none := by
      have hminus : parseDigits ('-' :: (rest ++ cs).take 3) = none := by
        rw [parseDigits, if_neg (by simp)]
      rw [readDigits, List.take_succ_cons, hminus, Option.map_none, ite_self]
    rw [hrest, List.cons_append, readDate, hdigits]
    rfl
  -- The reader takes four digits and then wants a hyphen.
  · have htext : yearText y = Nat.toDigits 10 y.natAbs := by
      rw [yearText, if_neg (by omega), if_neg (by omega), List.nil_append]
    have hlong : 5 ≤ (yearText y).length := by
      rw [htext]
      by_contra hshort
      have hle := (Nat.length_toDigits_le_iff (b := 10) (n := y.natAbs) (k := 4) (by decide)
        (by decide)).mp (by omega)
      omega
    obtain ⟨c, rest, hc⟩ : ∃ c rest, (yearText y).drop 4 = c :: rest :=
      List.exists_cons_of_ne_nil (by simp [List.drop_eq_nil_iff]; omega)
    have hdigit : c.isDigit = true := by
      have hmem : c ∈ yearText y := List.mem_of_mem_drop (by rw [hc]; simp)
      rw [htext] at hmem
      exact Nat.isDigit_of_mem_toDigits (by decide) (by decide) hmem
    have hne : c ≠ '-' := by
      rintro rfl
      exact absurd hdigit (by decide)
    have hdrop : (yearText y ++ cs).drop 4 = c :: (rest ++ cs) := by
      rw [List.drop_append_of_le_length (by omega), hc, List.cons_append]
    rw [readDate, readDigits, hdrop]
    split_ifs
    · rcases parseDigits ((yearText y ++ cs).take 4) with _ | v
      · rfl
      · show (readChar '-' (c :: (rest ++ cs))).bind _ = none
        rw [readChar, if_neg hne]
        rfl
    · rfl

/-- The text of any other instant is refused. -/
theorem parseGoTime_rfc3339Nano_none {n : ℤ} (h : ¬HasWrittenYear n) :
    parseGoTime (rfc3339Nano n) = none := by
  have hyear : yearOfDay (dayOf n) < 0 ∨ 9999 < yearOfDay (dayOf n) := by
    unfold HasWrittenYear at h
    omega
  unfold parseGoTime rfc3339Nano stampBody dayText
  dsimp only
  rw [List.append_assoc, List.append_assoc, readDate_yearText hyear]
  rfl

/-- An hour that is read is below 24. -/
theorem readHour_lt {h : ℕ} {cs rest : List Char} (hread : readHour cs = some (h, rest)) :
    h < 24 := by
  unfold readHour at hread
  split at hread
  · next c d rest =>
    split at hread
    · next hdigit =>
      have hc : c.toNat ≤ 57 := by
        have hbounds := hdigit.1
        simp only [Char.isDigit, Bool.and_eq_true, decide_eq_true_eq] at hbounds
        exact hbounds.2
      have heq : c.toNat - '0'.toNat = h := (Prod.mk.inj (Option.some.inj hread)).1
      have hzero : '0'.toNat = 48 := rfl
      omega
    · have hle := (readBetween_eq_some.mp hread).2.2
      dsimp only at hle
      omega
  · cases hread

/-- A time of the day that is read is within the day. -/
theorem readGoClock_lt {secs : ℕ} {cs rest : List Char}
    (h : readGoClock cs = some (secs, rest)) : secs < 86400 := by
  simp only [readGoClock, Option.bind_eq_bind, Option.bind_eq_some_iff, readBetween_eq_some] at h
  obtain ⟨⟨hour, cs₁⟩, hhour, cs₂, -, ⟨minute, cs₃⟩, ⟨-, -, hminute⟩, cs₄, -, ⟨second, cs₅⟩,
    ⟨-, -, hsecond⟩, hsecs⟩ := h
  have hhour := readHour_lt hhour
  have hvalue := (Prod.mk.inj (Option.some.inj hsecs)).1
  dsimp only at hminute hsecond hvalue
  omega

/-- A fraction that is read is within the second. -/
theorem readFraction_lt {f : ℕ} {cs rest : List Char} (h : readFraction cs = some (f, rest)) :
    f < 10 ^ 9 := by
  unfold readFraction at h
  split at h
  · have heq := (Prod.mk.inj (Option.some.inj h)).1
    omega
  · next rest _ =>
    dsimp only at h
    generalize rest.takeWhile Char.isDigit = ds at h
    obtain ⟨n, hn, hpair⟩ := Option.map_eq_some_iff.mp h
    have hlt : n < 10 ^ ds.length := by
      obtain ⟨-, hd, rfl⟩ := parseDigits_eq_some.mp hn
      exact ofDigitChars_lt hd
    have heq := (Prod.mk.inj hpair).1
    rw [← heq]
    -- Nine digits are kept.
    rcases Nat.le_total ds.length 9 with hle | hle
    · have hpow : 10 ^ (9 - ds.length) * 10 ^ ds.length = 10 ^ 9 := by
        rw [← pow_add, Nat.sub_add_cancel hle]
      rw [Nat.sub_eq_zero_of_le hle, pow_zero, Nat.div_one, ← hpow, Nat.mul_comm]
      exact Nat.mul_lt_mul_of_pos_left hlt (by positivity)
    · have hpow : 10 ^ (ds.length - 9) * 10 ^ 9 = 10 ^ ds.length := by
        rw [← pow_add, Nat.sub_add_cancel hle]
      rw [← hpow] at hlt
      rw [Nat.sub_eq_zero_of_le hle, pow_zero, Nat.mul_one]
      exact Nat.div_lt_of_lt_mul hlt

/-- So is one with a comma or a point. -/
theorem readGoFraction_lt {f : ℕ} {cs rest : List Char}
    (h : readGoFraction cs = some (f, rest)) : f < 10 ^ 9 := by
  unfold readGoFraction at h
  split at h
  · exact readFraction_lt h
  · exact readFraction_lt h

/-- An offset that is read is of at most 25 hours. -/
theorem readGoZone_bounds {cs : List Char} {offset : ℤ} (h : readGoZone cs = some offset) :
    -1500 ≤ offset ∧ offset ≤ 1500 := by
  unfold readGoZone at h
  split at h
  · have heq := Option.some.inj h
    omega
  · split at h
    · cases h
    · simp only [Option.bind_eq_bind, Option.bind_eq_some_iff, readBetween_eq_some] at h
      obtain ⟨⟨hh, cs₁⟩, ⟨-, -, hhour⟩, cs₂, -, ⟨mm, cs₃⟩, ⟨-, -, hminute⟩, hsign⟩ := h
      dsimp only at hhour hminute hsign
      split_ifs at hsign
      · have heq := Option.some.inj hsign
        omega
      · have heq := Option.some.inj hsign
        omega

/-- What is read lies at most a day and an hour outside the years of four digits. -/
theorem parseGoTime_bounds {cs : List Char} {n : ℤ} (h : parseGoTime cs = some n) :
    -1 ≤ yearOfDay (dayOf n) ∧ yearOfDay (dayOf n) ≤ 10000 := by
  -- The fields read lie in their ranges, and with them the number of seconds.
  simp only [parseGoTime, Option.bind_eq_bind, Option.bind_eq_some_iff] at h
  obtain ⟨⟨date, cs₁⟩, hdate, cs₂, -, ⟨secs, cs₃⟩, hclock, ⟨nanos, cs₄⟩, hfraction, offset, hzone,
    hn⟩ := h
  obtain ⟨hy, hm1, hm12, hd1, hd31⟩ := readDate_valid hdate
  have hsecs := readGoClock_lt hclock
  have hnanos := readGoFraction_lt hfraction
  have hoffset := readGoZone_bounds hzone
  -- A date read has a year from 0 to 9999.
  have hdays : -366 ≤ date.toDays ∧ date.toDays < 3652059 := by
    unfold Civil.toDays
    dsimp only
    split_ifs <;> omega
  have hvalue := Option.some.inj hn
  dsimp only at hvalue
  have hday : -368 ≤ dayOf n ∧ dayOf n ≤ 3652061 := by
    unfold dayOf
    omega
  -- The offset moves the day by at most one, into the neighbouring years at the ends.
  have hlow : daysOf (-1) 1 1 ≤ dayOf n := by
    have hfirst : daysOf (-1) 1 1 = -731 := by decide
    omega
  have hhigh : ¬daysOf 10001 1 1 ≤ dayOf n := by
    have hlast : daysOf 10001 1 1 = 3652425 := by decide
    omega
  have hle := le_yearOfDay.mpr hlow
  have hlt := mt le_yearOfDay.mp hhigh
  omega

end LedgerSync.Lib
