import LedgerSync.Lib.Decimal
import Mathlib.Data.List.DropRight
import Mathlib.Tactic.IntervalCases

/-!
# Instants and their RFC 3339 text

An instant is a number of microseconds since `0001-01-01T00:00:00Z`. `Civil.ofDays` gives the
proleptic Gregorian date of a day number, through the 400-year cycle cut into centuries, four-year
groups and years that begin in March, so that the leap day is the last of its year.

`utcText` is the text with six fraction digits and `Z`, and `offsetText` the one with a trimmed
fraction and a numeric offset. `parseRfc3339` reads both; a `Timestamp`, whose year has four digits,
has texts that it accepts (`parseRfc3339_utcText`, `parseRfc3339_offsetText`). `wholeText` is the
text in whole seconds.
-/

namespace LedgerSync.Lib

/-! ## Dates -/

/-- A date of the proleptic Gregorian calendar. -/
structure Civil where
  /-- The year. -/
  year : ℕ
  /-- The month, from 1. -/
  month : ℕ
  /-- The day of the month, from 1. -/
  day : ℕ
deriving DecidableEq

/-- Whether a year has a leap day. -/
def isLeap (y : ℕ) : Prop := y % 4 = 0 ∧ (y % 100 ≠ 0 ∨ y % 400 = 0)

/-- Whether a year is a leap year can be decided. -/
instance (y : ℕ) : Decidable (isLeap y) := inferInstanceAs (Decidable (_ ∧ _))

/-- The number of days of a month. -/
def daysIn (month year : ℕ) : ℕ :=
  if month = 2 then (if isLeap year then 29 else 28)
  else if month = 4 ∨ month = 6 ∨ month = 9 ∨ month = 11 then 30
  else 31

/-- The place of a day in the 400-year cycle: the year of the cycle, counted from March, and the
day of that year. -/
def yearOfCycle (doe : ℕ) : ℕ × ℕ :=
  let century := min 3 (doe / 36524)
  let r := doe - century * 36524
  let group := min 24 (r / 1461)
  let r' := r - group * 1461
  let year := min 3 (r' / 365)
  (100 * century + 4 * group + year, r' - year * 365)

/-- The date of the day that is `n` days after `0001-01-01`. -/
def Civil.ofDays (n : ℕ) : Civil :=
  let z := n + 306
  let y := (yearOfCycle (z % 146097)).1 + 400 * (z / 146097)
  let doy := (yearOfCycle (z % 146097)).2
  let mp := (5 * doy + 2) / 153
  let day := doy - (153 * mp + 2) / 5 + 1
  if mp < 10 then ⟨y, mp + 3, day⟩ else ⟨y + 1, mp - 9, day⟩

/-- The number of days from `0001-01-01` to a date. -/
def Civil.toDays (c : Civil) : ℤ :=
  let y : ℤ := if c.month ≤ 2 then (c.year : ℤ) - 1 else c.year
  let mp : ℤ := if c.month ≤ 2 then c.month + 9 else (c.month : ℤ) - 3
  y * 365 + y / 4 - y / 100 + y / 400 + (153 * mp + 2) / 5 + (c.day : ℤ) - 1 - 306

/-- A year of the cycle has at most 366 days, and 366 only before a leap February. -/
theorem yearOfCycle_spec {doe : ℕ} (h : doe < 146097) :
    (yearOfCycle doe).1 ≤ 399 ∧ (yearOfCycle doe).2 ≤ 365 ∧
      ((yearOfCycle doe).2 = 365 → isLeap ((yearOfCycle doe).1 + 1)) := by
  simp only [yearOfCycle, isLeap]
  generalize hc : min 3 (doe / 36524) = c
  generalize hg : min 24 ((doe - c * 36524) / 1461) = g
  generalize hy : min 3 ((doe - c * 36524 - g * 1461) / 365) = y
  refine ⟨by omega, by omega, fun h365 => ?_⟩
  -- The leap day ends the fourth year of a group, and the last group of a century has none
  -- except at the end of the cycle.
  have hy3 : y = 3 := by omega
  have hg24 : g = 24 → c = 3 := by omega
  have hgc : g ≤ 24 ∧ c ≤ 3 := by omega
  by_cases hlast : g = 24
  · have := hg24 hlast
    omega
  · omega

/-- The leap years come again after four hundred years. -/
theorem isLeap_add_cycles (y k : ℕ) : isLeap (y + 400 * k) ↔ isLeap y := by
  unfold isLeap
  omega

/-- Every day number has a date of the calendar. -/
theorem Civil.ofDays_valid (n : ℕ) :
    1 ≤ (Civil.ofDays n).month ∧ (Civil.ofDays n).month ≤ 12 ∧ 1 ≤ (Civil.ofDays n).day ∧
      (Civil.ofDays n).day ≤ daysIn (Civil.ofDays n).month (Civil.ofDays n).year := by
  obtain ⟨-, hdoy, hleap⟩ := yearOfCycle_spec (Nat.mod_lt (n + 306) (by decide : 0 < 146097))
  simp only [Civil.ofDays]
  generalize (yearOfCycle ((n + 306) % 146097)).1 = y at hleap ⊢
  generalize (yearOfCycle ((n + 306) % 146097)).2 = doy at hdoy hleap ⊢
  generalize (n + 306) / 146097 = era
  generalize hmp : (5 * doy + 2) / 153 = mp
  have hmp12 : mp ≤ 11 := by omega
  split_ifs with h10
  · -- March to December: a fixed number of days each.
    change 1 ≤ mp + 3 ∧ mp + 3 ≤ 12 ∧ 1 ≤ doy - (153 * mp + 2) / 5 + 1 ∧
      doy - (153 * mp + 2) / 5 + 1 ≤ daysIn (mp + 3) (y + 400 * era)
    refine ⟨by omega, by omega, by omega, ?_⟩
    rw [daysIn, if_neg (by omega)]
    split_ifs <;> omega
  · by_cases h10' : mp = 10
    · subst h10'
      simp [daysIn]
      omega
    · have h11 : mp = 11 := by omega
      subst h11
      -- February: the 29th is the day 365 of the year that began in March.
      have hl : doy = 365 → isLeap (y + 400 * era + 1) := fun h => by
        rw [show y + 400 * era + 1 = y + 1 + 400 * era by ring]
        exact (isLeap_add_cycles _ _).mpr (hleap h)
      have hlo : 337 ≤ doy := by omega
      change 1 ≤ 2 ∧ 2 ≤ 12 ∧ 1 ≤ doy - 337 + 1 ∧ doy - 337 + 1 ≤ daysIn 2 (y + 400 * era + 1)
      refine ⟨by decide, by decide, by omega, ?_⟩
      rw [daysIn, if_pos rfl]
      split_ifs with hy
      · omega
      · have : doy ≠ 365 := fun h => hy (hl h)
        omega

/-- The days of the years 1 to 9999. -/
theorem Civil.ofDays_year_lt {n : ℕ} (h : n < 3652059) : (Civil.ofDays n).year < 10000 := by
  simp only [Civil.ofDays]
  have hlt : (n + 306) % 146097 < 146097 := Nat.mod_lt _ (by decide)
  obtain ⟨hy, hdoy, -⟩ := yearOfCycle_spec hlt
  -- There are 146097 days in each full cycle of 400 years.
  by_cases hera : (n + 306) / 146097 ≤ 23
  · split_ifs
    · change _ + _ < _
      omega
    · change _ + _ + 1 < _
      omega
  · -- The last cycle begins with March 9600 and is cut at the end of December 9999.
    have hera' : (n + 306) / 146097 = 24 := by omega
    have hdoe : (n + 306) % 146097 < 146037 := by omega
    rw [hera']
    generalize (n + 306) % 146097 = doe at hdoe ⊢
    have hlast : (yearOfCycle doe).1 = 399 → (yearOfCycle doe).2 < 306 := by
      simp only [yearOfCycle]
      omega
    obtain ⟨hy, -, -⟩ := yearOfCycle_spec (show doe < 146097 by omega)
    generalize (yearOfCycle doe).1 = y at hlast hy ⊢
    generalize (yearOfCycle doe).2 = doy at hlast ⊢
    split_ifs
    · change _ + _ < _
      omega
    · change _ + _ + 1 < _
      omega

/-- The date of a day number has that number. -/
theorem Civil.toDays_ofDays (n : ℕ) : (Civil.ofDays n).toDays = n := by
  obtain ⟨hy, hdoy, -⟩ := yearOfCycle_spec (Nat.mod_lt (n + 306) (by decide : 0 < 146097))
  have hsplit := Nat.div_add_mod (n + 306) 146097
  -- The year of the cycle and its day give the day of the cycle back.
  have hdoe : ∀ doe < 146097, 365 * (yearOfCycle doe).1 + (yearOfCycle doe).1 / 4 -
      (yearOfCycle doe).1 / 100 + (yearOfCycle doe).2 = doe := by
    intro doe h
    simp only [yearOfCycle]
    generalize hc : min 3 (doe / 36524) = c
    generalize hg : min 24 ((doe - c * 36524) / 1461) = g
    generalize hyr : min 3 ((doe - c * 36524 - g * 1461) / 365) = yr
    have h4 : (100 * c + 4 * g + yr) / 4 = 25 * c + g := by omega
    have h100 : (100 * c + 4 * g + yr) / 100 = c := by omega
    rw [h4, h100]
    omega
  have hcycle := hdoe _ (Nat.mod_lt (n + 306) (by decide : 0 < 146097))
  simp only [Civil.ofDays]
  generalize (yearOfCycle ((n + 306) % 146097)).1 = y at hy hcycle ⊢
  generalize (yearOfCycle ((n + 306) % 146097)).2 = doy at hdoy hcycle ⊢
  generalize (n + 306) % 146097 = doe at hsplit hcycle
  generalize (n + 306) / 146097 = era at hsplit ⊢
  generalize hmp : (5 * doy + 2) / 153 = mp
  split_ifs with h10
  · simp only [Civil.toDays]
    rw [if_neg (by omega), if_neg (by omega)]
    push_cast
    omega
  · simp only [Civil.toDays]
    rw [if_pos (by omega), if_pos (by omega)]
    push_cast
    omega

/-- No day number lies before the year 1. -/
theorem Civil.one_le_ofDays_year (n : ℕ) : 1 ≤ (Civil.ofDays n).year := by
  have hsplit := Nat.div_add_mod (n + 306) 146097
  have hfirst : ∀ doe, 306 ≤ doe → (yearOfCycle doe).1 = 0 → 306 ≤ (yearOfCycle doe).2 := by
    intro doe h
    simp only [yearOfCycle]
    omega
  have hfirst := hfirst ((n + 306) % 146097)
  simp only [Civil.ofDays]
  generalize (yearOfCycle ((n + 306) % 146097)).1 = y at hfirst ⊢
  generalize (yearOfCycle ((n + 306) % 146097)).2 = doy at hfirst ⊢
  generalize (n + 306) % 146097 = doe at hsplit hfirst
  generalize (n + 306) / 146097 = era at hsplit ⊢
  split_ifs with h10
  · change 1 ≤ y + 400 * era
    omega
  · change 1 ≤ y + 400 * era + 1
    omega

/-- The day numbers of the years 1 to 9999. -/
theorem Civil.toDays_bounds {c : Civil} (hy1 : 1 ≤ c.year) (hy : c.year < 10000) (hm1 : 1 ≤ c.month)
    (hm12 : c.month ≤ 12) (hd1 : 1 ≤ c.day) (hd : c.day ≤ 31) :
    0 ≤ c.toDays ∧ c.toDays < 3652059 := by
  simp only [Civil.toDays]
  split_ifs with h2
  · omega
  · omega

/-! ## Texts -/

/-- A number in `w` decimal digits. -/
def padDigits : ℕ → ℕ → List Char
  | 0, _ => []
  | w + 1, n => padDigits w (n / 10) ++ [Nat.digitChar (n % 10)]

/-- Padded digits have their width. -/
@[simp]
theorem length_padDigits (w n : ℕ) : (padDigits w n).length = w := by
  induction w generalizing n with
  | zero => rfl
  | succ w ih => simp [padDigits, ih]

/-- Padded digits are digits. -/
theorem isDigit_padDigits {w n : ℕ} {c : Char} (h : c ∈ padDigits w n) : c.isDigit = true := by
  induction w generalizing n with
  | zero => simp [padDigits] at h
  | succ w ih =>
    rw [padDigits, List.mem_append, List.mem_singleton] at h
    rcases h with h | rfl
    · exact ih h
    · have hlt : n % 10 < 10 := Nat.mod_lt _ (by decide)
      generalize n % 10 = d at hlt
      interval_cases d <;> decide

/-- Padded digits are those of their number. -/
theorem ofDigitChars_padDigits {w n : ℕ} (h : n < 10 ^ w) :
    Nat.ofDigitChars 10 (padDigits w n) 0 = n := by
  induction w generalizing n with
  | zero =>
    have : n = 0 := by simpa using h
    simp [padDigits, this]
  | succ w ih =>
    have hdiv : n / 10 < 10 ^ w := Nat.div_lt_of_lt_mul (by rw [pow_succ'] at h; exact h)
    rw [padDigits, Nat.ofDigitChars_append, ih hdiv,
      Nat.ofDigitChars_cons_digitChar_of_lt_ten (Nat.mod_lt _ (by decide)), Nat.ofDigitChars_nil]
    omega

/-- An instant whose text has a four-digit year: microseconds since `0001-01-01T00:00:00Z`, before
the year 10000. -/
structure Timestamp where
  /-- The microseconds. -/
  micros : ℕ
  /-- The year has at most four digits. -/
  inRange : micros < 315537897600000000
deriving DecidableEq

/-- `YYYY-MM-DD`. -/
def dateText (c : Civil) : List Char :=
  padDigits 4 c.year ++ '-' :: (padDigits 2 c.month ++ '-' :: padDigits 2 c.day)

/-- `HH:MM:SS`, of a number of seconds since midnight. -/
def clockText (secs : ℕ) : List Char :=
  padDigits 2 (secs / 3600) ++ ':' :: (padDigits 2 (secs / 60 % 60) ++ ':' ::
    padDigits 2 (secs % 60))

/-- `YYYY-MM-DDTHH:MM:SS`, in UTC. -/
def secondsText (t : Timestamp) : List Char :=
  dateText (Civil.ofDays (t.micros / 86400000000)) ++
    'T' :: clockText (t.micros % 86400000000 / 1000000)

/-- `YYYY-MM-DDTHH:MM:SS.ffffffZ`. -/
def utcText (t : Timestamp) : String :=
  String.ofList (secondsText t ++ '.' :: padDigits 6 (t.micros % 1000000) ++ ['Z'])

/-- A fraction of a second without trailing zeros, and nothing at all when it is zero. -/
def trimmedFraction (micros : ℕ) : List Char :=
  if micros = 0 then []
  else '.' :: ((padDigits 6 micros).rdropWhile (· == '0'))

/-- `YYYY-MM-DDTHH:MM:SS[.f…]+00:00`, the fraction without trailing zeros. -/
def offsetText (t : Timestamp) : String :=
  String.ofList (secondsText t ++ (trimmedFraction (t.micros % 1000000) ++
    ['+', '0', '0', ':', '0', '0']))

/-! ## Reading -/

/-- A number of exactly `w` digits, and what follows it. -/
def readDigits (w : ℕ) (cs : List Char) : Option (ℕ × List Char) :=
  if (cs.take w).length = w then (parseDigits (cs.take w)).map fun n => (n, cs.drop w) else none

/-- A number of `w` digits within bounds, and what follows it. -/
def readBetween (w lo hi : ℕ) (cs : List Char) : Option (ℕ × List Char) :=
  (readDigits w cs).bind fun r => if lo ≤ r.1 ∧ r.1 ≤ hi then some r else none

/-- What follows a given character. -/
def readChar (c : Char) : List Char → Option (List Char)
  | [] => none
  | x :: xs => if x = c then some xs else none

/-- An optional fraction of a second, in nanoseconds, and what follows it. Digits after the ninth
are dropped. -/
def readFraction (cs : List Char) : Option (ℕ × List Char) :=
  match readChar '.' cs with
  | none => some (0, cs)
  | some rest =>
    let ds := rest.takeWhile Char.isDigit
    (parseDigits ds).map fun n => (n * 10 ^ (9 - ds.length) / 10 ^ (ds.length - 9),
      rest.dropWhile Char.isDigit)

/-- A zone that ends the text, as its offset in minutes. -/
def readZone (cs : List Char) : Option ℤ :=
  if cs = ['Z'] then some 0
  else match cs with
    | [] => none
    | sign :: rest => do
      let (hh, rest) ← readBetween 2 0 23 rest
      let rest ← readChar ':' rest
      let (mm, rest) ← readBetween 2 0 59 rest
      if rest = [] ∧ sign = '+' then some (60 * hh + mm : ℤ)
      else if rest = [] ∧ sign = '-' then some (-(60 * hh + mm : ℤ))
      else none

/-- A date of the calendar, and what follows it. -/
def readDate (cs : List Char) : Option (Civil × List Char) := do
  let (year, cs) ← readDigits 4 cs
  let cs ← readChar '-' cs
  let (month, cs) ← readBetween 2 1 12 cs
  let cs ← readChar '-' cs
  let (day, cs) ← readBetween 2 1 (daysIn month year) cs
  some (⟨year, month, day⟩, cs)

/-- A time of day in seconds since midnight, and what follows it. -/
def readClock (cs : List Char) : Option (ℕ × List Char) := do
  let (hour, cs) ← readBetween 2 0 23 cs
  let cs ← readChar ':' cs
  let (minute, cs) ← readBetween 2 0 59 cs
  let cs ← readChar ':' cs
  let (second, cs) ← readBetween 2 0 59 cs
  some ((hour * 60 + minute) * 60 + second, cs)

/-- The nanoseconds since `0001-01-01T00:00:00Z` that an RFC 3339 text denotes. -/
def parseRfc3339 (s : String) : Option ℤ := do
  let (date, cs) ← readDate s.toList
  let cs ← readChar 'T' cs
  let (secs, cs) ← readClock cs
  let (nanos, cs) ← readFraction cs
  let offset ← readZone cs
  some ((date.toDays * 86400 + secs - offset * 60) * 1000000000 + nanos)

/-- Padded digits are read back. -/
theorem readDigits_padDigits {w n : ℕ} (hw : 0 < w) (h : n < 10 ^ w) (cs : List Char) :
    readDigits w (padDigits w n ++ cs) = some (n, cs) := by
  have htake : (padDigits w n ++ cs).take w = padDigits w n := by
    rw [List.take_left' (length_padDigits w n)]
  have hdrop : (padDigits w n ++ cs).drop w = cs := by
    rw [List.drop_left' (length_padDigits w n)]
  have hne : padDigits w n ≠ [] := by
    rw [← List.length_pos_iff, length_padDigits]
    exact hw
  have hall : (padDigits w n).all Char.isDigit = true :=
    List.all_eq_true.mpr fun c hc => isDigit_padDigits hc
  rw [readDigits, htake, hdrop, if_pos (length_padDigits w n), parseDigits, if_pos ⟨hne, hall⟩,
    ofDigitChars_padDigits h]
  rfl

/-- Padded digits of a number between bounds are read back. -/
theorem readBetween_padDigits {w n lo hi : ℕ} (hw : 0 < w) (h : n < 10 ^ w) (hlo : lo ≤ n)
    (hhi : n ≤ hi) (cs : List Char) :
    readBetween w lo hi (padDigits w n ++ cs) = some (n, cs) := by
  rw [readBetween, readDigits_padDigits hw h, Option.bind_some, if_pos ⟨hlo, hhi⟩]

/-- A character is read where it stands. -/
@[simp]
theorem readChar_cons (c : Char) (cs : List Char) : readChar c (c :: cs) = some cs := by
  simp [readChar]

/-- A fraction of digits is read up to the zone that follows it. -/
theorem readFraction_digits {ds : List Char} (hne : ds ≠ [])
    (hd : ∀ c ∈ ds, c.isDigit = true) {z : Char} (hz : z.isDigit = false) (cs : List Char) :
    ∃ n, readFraction ('.' :: (ds ++ z :: cs)) = some (n, z :: cs) := by
  have htake : (ds ++ z :: cs).takeWhile Char.isDigit = ds := by
    rw [List.takeWhile_append_of_pos hd, List.takeWhile_cons_of_neg (by simp [hz]),
      List.append_nil]
  have hdrop : (ds ++ z :: cs).dropWhile Char.isDigit = z :: cs := by
    rw [List.dropWhile_append_of_pos hd, List.dropWhile_cons_of_neg (by simp [hz])]
  have hparse : parseDigits ds = some (Nat.ofDigitChars 10 ds 0) := by
    rw [parseDigits, if_pos ⟨hne, List.all_eq_true.mpr hd⟩]
  simp only [readFraction, readChar_cons, htake, hdrop, hparse, Option.map_some]
  exact ⟨_, rfl⟩

/-- A date of the calendar with a four-digit year is read back. -/
theorem readDate_dateText {c : Civil} (hy : c.year < 10000) (hm1 : 1 ≤ c.month)
    (hm12 : c.month ≤ 12) (hd1 : 1 ≤ c.day) (hd : c.day ≤ daysIn c.month c.year)
    (cs : List Char) : readDate (dateText c ++ cs) = some (c, cs) := by
  have hd31 : daysIn c.month c.year ≤ 31 := by
    unfold daysIn
    split_ifs <;> omega
  simp only [readDate, dateText, List.append_assoc, List.cons_append]
  rw [readDigits_padDigits (by decide) (by omega)]
  simp only [Option.bind_eq_bind, Option.bind_some, readChar_cons]
  rw [readBetween_padDigits (by decide) (by omega) hm1 hm12]
  simp only [Option.bind_some, readChar_cons]
  rw [readBetween_padDigits (by decide) (by omega) hd1 hd]
  rfl

/-- A time of day is read back. -/
theorem readClock_clockText {secs : ℕ} (h : secs < 86400) (cs : List Char) :
    readClock (clockText secs ++ cs) = some (secs, cs) := by
  simp only [readClock, clockText, List.append_assoc, List.cons_append]
  rw [readBetween_padDigits (by decide) (by omega) (Nat.zero_le _) (by omega)]
  simp only [Option.bind_eq_bind, Option.bind_some, readChar_cons]
  rw [readBetween_padDigits (by decide) (by omega) (Nat.zero_le _) (by omega)]
  simp only [Option.bind_some, readChar_cons]
  rw [readBetween_padDigits (by decide) (by omega) (Nat.zero_le _) (by omega), Option.bind_some]
  congr 2
  omega

/-- A date and time of day written in full is read up to its fraction and zone. -/
theorem parseRfc3339_secondsText (t : Timestamp) {cs rest : List Char} {nanos : ℕ} {offset : ℤ}
    (hf : readFraction cs = some (nanos, rest)) (hz : readZone rest = some offset) :
    ∃ n, parseRfc3339 (String.ofList (secondsText t ++ cs)) = some n := by
  have hdays : t.micros / 86400000000 < 3652059 := by have := t.inRange; omega
  have hyear := Civil.ofDays_year_lt hdays
  obtain ⟨hm1, hm12, hd1, hd⟩ := Civil.ofDays_valid (t.micros / 86400000000)
  have hsecs : t.micros % 86400000000 / 1000000 < 86400 := by omega
  rw [parseRfc3339, secondsText, String.toList_ofList, List.append_assoc,
    readDate_dateText hyear hm1 hm12 hd1 hd]
  simp only [Option.bind_eq_bind, Option.bind_some, List.cons_append, readChar_cons,
    readClock_clockText hsecs, hf, hz]
  exact ⟨_, rfl⟩

/-- The text with `Z` is accepted. -/
theorem parseRfc3339_utcText (t : Timestamp) : ∃ n, parseRfc3339 (utcText t) = some n := by
  have hne : padDigits 6 (t.micros % 1000000) ≠ [] := by
    rw [← List.length_pos_iff, length_padDigits]
    decide
  obtain ⟨n, hf⟩ := readFraction_digits hne (fun c hc => isDigit_padDigits hc)
    (z := 'Z') (by decide) []
  rw [utcText, List.append_assoc]
  exact parseRfc3339_secondsText t hf (show readZone ['Z'] = some 0 by decide)

/-- The text with a trimmed fraction and a numeric offset is accepted. -/
theorem parseRfc3339_offsetText (t : Timestamp) :
    ∃ n, parseRfc3339 (offsetText t) = some n := by
  rw [offsetText]
  have hz : readZone ['+', '0', '0', ':', '0', '0'] = some 0 := by decide
  by_cases h0 : t.micros % 1000000 = 0
  · refine parseRfc3339_secondsText t (show readFraction _ = some (0, _) from ?_) hz
    rw [h0]
    decide
  · -- The fraction keeps its last nonzero digit.
    have hlt : t.micros % 1000000 < 10 ^ 6 := Nat.mod_lt _ (by decide)
    generalize t.micros % 1000000 = f at h0 hlt ⊢
    -- A fraction other than zero has a digit other than zero.
    have hne : (padDigits 6 f).rdropWhile (· == '0') ≠ [] := by
      intro hnil
      rw [List.rdropWhile_eq_nil_iff] at hnil
      have hall : padDigits 6 f = List.replicate 6 '0' := by
        refine List.eq_replicate_iff.mpr ⟨length_padDigits 6 f, fun c hc => ?_⟩
        simpa using hnil c hc
      have hval := ofDigitChars_padDigits hlt
      rw [hall, Nat.ofDigitChars_replicate_zero] at hval
      exact h0 hval.symm
    obtain ⟨n, hf⟩ := readFraction_digits hne
      (fun c hc => isDigit_padDigits ((List.rdropWhile_prefix _ _).subset hc))
      (z := '+') (by decide) ['0', '0', ':', '0', '0']
    rw [trimmedFraction, if_neg h0]
    exact parseRfc3339_secondsText t hf hz

/-! ## Texts in whole seconds -/

/-- `YYYY-MM-DDTHH:MM:SSZ`, of a number of seconds since `0001-01-01T00:00:00Z`. -/
def wholeText (secs : ℕ) : List Char :=
  dateText (Civil.ofDays (secs / 86400)) ++ 'T' :: (clockText (secs % 86400) ++ ['Z'])

/-- `YYYY-MM-DDTHH:MM:SS[.f…]Z`, of a number of nanoseconds since `0001-01-01T00:00:00Z`; the
fraction is without trailing zeros. -/
def nanoText (nanos : ℕ) : String :=
  let fraction := nanos % 1000000000
  String.ofList (dateText (Civil.ofDays (nanos / 86400000000000)) ++
    'T' :: (clockText (nanos / 1000000000 % 86400) ++
      ((if fraction = 0 then [] else '.' :: (padDigits 9 fraction).rdropWhile (· == '0')) ++ ['Z'])))

/-- The seconds of the years 1 to 9999. -/
def wholeSeconds : ℕ := 315537897600

/-- A time of whole seconds has 20 characters. -/
theorem length_wholeText (secs : ℕ) : (wholeText secs).length = 20 := by
  simp [wholeText, dateText, clockText]

/-- Digits parse to their number. -/
theorem parseDigits_eq_some {ds : List Char} {n : ℕ} :
    parseDigits ds = some n ↔
      ds ≠ [] ∧ (∀ c ∈ ds, c.isDigit = true) ∧ Nat.ofDigitChars 10 ds 0 = n := by
  simp [parseDigits, List.all_eq_true, and_assoc]

/-- A number of `w` digits is below `10 ^ w`. -/
theorem readDigits_lt {w n : ℕ} {cs rest : List Char} (h : readDigits w cs = some (n, rest)) :
    n < 10 ^ w := by
  unfold readDigits at h
  split_ifs at h with hlen
  obtain ⟨m, hm, hpair⟩ := Option.map_eq_some_iff.mp h
  cases hpair
  obtain ⟨-, hd, rfl⟩ := parseDigits_eq_some.mp hm
  have := ofDigitChars_lt hd
  rwa [hlen] at this

/-- A number that is read between bounds is one that is read and is between them. -/
theorem readBetween_eq_some {w lo hi : ℕ} {cs : List Char} {r : ℕ × List Char} :
    readBetween w lo hi cs = some r ↔ readDigits w cs = some r ∧ lo ≤ r.1 ∧ r.1 ≤ hi := by
  simp [readBetween, Option.bind_eq_some_iff]

/-- A date that is read is one of the calendar. -/
theorem readDate_valid {c : Civil} {cs rest : List Char} (h : readDate cs = some (c, rest)) :
    c.year < 10000 ∧ 1 ≤ c.month ∧ c.month ≤ 12 ∧ 1 ≤ c.day ∧ c.day ≤ 31 := by
  simp only [readDate, Option.bind_eq_bind, Option.bind_eq_some_iff, readBetween_eq_some] at h
  obtain ⟨⟨year, cs₁⟩, hyear, cs₂, -, ⟨month, cs₃⟩, ⟨-, hm1, hm12⟩, cs₄, -, ⟨day, cs₅⟩,
    ⟨-, hd1, hd⟩, hc⟩ := h
  cases hc
  have hd31 : daysIn month year ≤ 31 := by
    unfold daysIn
    split_ifs <;> omega
  exact ⟨readDigits_lt hyear, hm1, hm12, hd1, hd.trans hd31⟩

/-! ## Texts to the nanosecond -/

/-- A fraction without its trailing zeros is read back. -/
theorem readFraction_trimmed {f : ℕ} (h0 : f ≠ 0) (h : f < 10 ^ 9) {z : Char}
    (hz : z.isDigit = false) (cs : List Char) :
    readFraction ('.' :: ((padDigits 9 f).rdropWhile (· == '0') ++ z :: cs)) = some (f, z :: cs) := by
  generalize hds : (padDigits 9 f).rdropWhile (· == '0') = ds
  generalize hzs : (padDigits 9 f).rtakeWhile (· == '0') = zs
  have hsplit : ds ++ zs = padDigits 9 f := by
    rw [← hds, ← hzs, List.rdropWhile, List.rtakeWhile, ← List.reverse_append,
      List.takeWhile_append_dropWhile, List.reverse_reverse]
  -- what was trimmed are zeros
  have hzeros : zs = List.replicate zs.length '0' := by
    refine List.eq_replicate_iff.mpr ⟨rfl, fun c hc => ?_⟩
    rw [← hzs] at hc
    simpa using List.mem_rtakeWhile_imp hc
  have hlength : ds.length + zs.length = 9 := by
    rw [← List.length_append, hsplit, length_padDigits]
  have hvalue : 10 ^ zs.length * Nat.ofDigitChars 10 ds 0 = f := by
    have hread := ofDigitChars_padDigits h
    rw [← hsplit, Nat.ofDigitChars_append, hzeros, Nat.ofDigitChars_replicate_zero] at hread
    simpa using hread
  have hdigits : ∀ c ∈ ds, c.isDigit = true := by
    intro c hc
    exact isDigit_padDigits (w := 9) (n := f) (hsplit ▸ List.mem_append_left _ hc)
  have hne : ds ≠ [] := by
    rintro rfl
    exact h0 (by simpa using hvalue.symm)
  have htake : (ds ++ z :: cs).takeWhile Char.isDigit = ds := by
    rw [List.takeWhile_append_of_pos hdigits, List.takeWhile_cons_of_neg (by simp [hz]),
      List.append_nil]
  have hdrop : (ds ++ z :: cs).dropWhile Char.isDigit = z :: cs := by
    rw [List.dropWhile_append_of_pos hdigits, List.dropWhile_cons_of_neg (by simp [hz])]
  have hparse : parseDigits ds = some (Nat.ofDigitChars 10 ds 0) := by
    rw [parseDigits, if_pos ⟨hne, List.all_eq_true.mpr hdigits⟩]
  have hlow : 9 - ds.length = zs.length := by omega
  have hhigh : ds.length - 9 = 0 := by omega
  simp only [readFraction, readChar_cons, htake, hdrop, hparse, Option.map_some, hlow, hhigh,
    pow_zero, Nat.div_one]
  rw [Nat.mul_comm, hvalue]

/-- The text of an instant before the year 10000 is read back. -/
theorem parseRfc3339_nanoText {n : ℕ} (h : n < wholeSeconds * 1000000000) :
    parseRfc3339 (nanoText n) = some (n : ℤ) := by
  have hdays : n / 86400000000000 < 3652059 := by
    unfold wholeSeconds at h
    omega
  have hyear := Civil.ofDays_year_lt hdays
  obtain ⟨hm1, hm12, hd1, hd⟩ := Civil.ofDays_valid (n / 86400000000000)
  have hsecs : n / 1000000000 % 86400 < 86400 := Nat.mod_lt _ (by decide)
  have hz : readZone ['Z'] = some 0 := by decide
  -- Trailing zeros are dropped, and the reader puts them back.
  have hfraction : readFraction ((if n % 1000000000 = 0 then []
      else '.' :: (padDigits 9 (n % 1000000000)).rdropWhile (· == '0')) ++ ['Z']) =
      some (n % 1000000000, ['Z']) := by
    have hlt : n % 1000000000 < 10 ^ 9 := Nat.mod_lt _ (by decide)
    generalize n % 1000000000 = f at hlt ⊢
    by_cases h0 : f = 0
    · subst h0
      decide
    · rw [if_neg h0]
      exact readFraction_trimmed h0 hlt (by decide) []
  -- Each field is read back, and with them the number of nanoseconds.
  simp only [parseRfc3339, nanoText, String.toList_ofList, readDate_dateText hyear hm1 hm12 hd1 hd,
    Option.bind_eq_bind, Option.bind_some, readChar_cons, readClock_clockText hsecs, hfraction, hz,
    Civil.toDays_ofDays, Option.some.injEq]
  omega

end LedgerSync.Lib
