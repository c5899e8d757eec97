import LedgerSync.ServiceValues

/-!
# Cells of exported spreadsheets

A cell that starts a formula is evaluated by the program that opens the export. Three exports each
put an apostrophe in front of such cells, and each skips another set of leading characters before it
looks: `Export` of the reservations skips every space, control and format character,
`SpreadsheetText` only four characters, and `safeText` only the space. A cell of one of the last two
can therefore still start a formula after its leading blanks (`cells_neutralized_iff`).
-/

namespace LedgerSync

/-! ## Texts -/

/-- What a `range` over a Go string comes to next: a character, or a byte that is part of none. -/
inductive GoRune where
  | char (c : Char)
  | byte (b : UInt8)
deriving DecidableEq

/-- The rune; for a byte that is part of no character it is `utf8.RuneError`. -/
def GoRune.rune : GoRune → Char
  | char c => c
  | byte _ => '\ufffd'

/-- A Go string. -/
abbrev GoString : Type := List GoRune

/-- The bytes of a rune. -/
def GoRune.bytes : GoRune → Bytes
  | .char c => String.utf8EncodeChar c
  | .byte b => [b]

/-- The bytes of a string. -/
def GoString.bytes (s : GoString) : Bytes := s.flatMap GoRune.bytes

/-- `unicode.IsControl`. -/
def isControl (c : Char) : Bool := c.toNat < 0x20 ∨ (0x7f ≤ c.toNat ∧ c.toNat < 0xa0)

/-- The ranges of `unicode.Cf`. -/
def formatRanges : List (ℕ × ℕ) :=
  [(0xad, 0xad), (0x600, 0x605), (0x61c, 0x61c), (0x6dd, 0x6dd), (0x70f, 0x70f), (0x890, 0x891),
    (0x8e2, 0x8e2), (0x180e, 0x180e), (0x200b, 0x200f), (0x202a, 0x202e), (0x2060, 0x2064),
    (0x2066, 0x206f), (0xfeff, 0xfeff), (0xfff9, 0xfffb), (0x110bd, 0x110bd), (0x110cd, 0x110cd),
    (0x13430, 0x1343f), (0x1bca0, 0x1bca3), (0x1d173, 0x1d17a), (0xe0001, 0xe0001),
    (0xe0020, 0xe007f)]

/-- `unicode.In(r, unicode.Cf)`. -/
def isFormat (c : Char) : Bool := formatRanges.any fun x => x.1 ≤ c.toNat ∧ c.toNat ≤ x.2

/-- The characters that start a formula. -/
def startsFormula (c : Char) : Bool := c ∈ ['=', '+', '-', '@']

/-- A Unicode space or a control character. -/
def isBlank (c : Char) : Bool := isSpace c || isControl c

/-- The cell begins, after its leading spaces and control characters, with a formula. -/
def Injects (cell : GoString) : Prop :=
  ∃ r, (cell.dropWhile (isBlank ·.rune)).head? = some r ∧ startsFormula r.rune = true

/-- Whether a cell injects a formula can be decided. -/
instance Injects.decidable (cell : GoString) : Decidable (Injects cell) :=
  decidable_of_iff (((cell.dropWhile (isBlank ·.rune)).head?.any (startsFormula ·.rune)) = true)
    (Option.any_eq_true ..)

/-! ## The three exports -/

/-- What `safeText` replaces a character by. No rune of a string is invalid for `utf8.ValidRune`. -/
def safeRune (r : GoRune) : GoRune :=
  if r.rune = '\r' ∨ r.rune = '\n' then .char ' ' else .char r.rune

/-- `dangerous` of `safeText`: the first character after the leading spaces. -/
def dangerous (value : GoString) : Bool :=
  (value.dropWhile (·.rune = ' ')).head?.any (·.rune ∈ ['=', '+', '-', '@', '\t', '\r'])

/-- `safeText` of the exports. -/
def safeText (value : GoString) : GoString :=
  let mapped := value.map safeRune
  let shortened := if mapped.length > 512 then mapped.take 512 else mapped
  if dangerous value then .char '\'' :: shortened else shortened

/-- The cut set of `SpreadsheetText`. -/
def sheetBlanks : List Char := [' ', '\t', '\r', '\n']

/-- `SpreadsheetText` of the statement reconciliation. -/
def spreadsheetText (value : GoString) : GoString :=
  let trimmed := value.dropWhile (·.rune ∈ sheetBlanks)
  if trimmed.head?.any (startsFormula ·.rune) then .char '\'' :: value else value

/-- What `Export` of the reservations writes for a cell. -/
def reservationCell (cell : GoString) : GoString :=
  let trimmed := cell.dropWhile fun r => isSpace r.rune || isControl r.rune || isFormat r.rune
  if trimmed.head?.any (startsFormula ·.rune) then .char '\'' :: cell else cell

/-! ## Where a formula starts -/

/-- `cell` is some skipped characters and then one that starts a formula. -/
def StartsAfter (skip : Char → Bool) (cell : GoString) : Prop :=
  ∃ blanks c rest, cell = blanks ++ c :: rest ∧ (∀ r ∈ blanks, skip r.rune = true) ∧
    startsFormula c.rune = true

/-- The characters that begin a formula. -/
theorem startsFormula_iff {c : Char} :
    startsFormula c = true ↔ c = '=' ∨ c = '+' ∨ c = '-' ∨ c = '@' := by
  simp [startsFormula]

/-- They are not blank. -/
theorem isBlank_of_startsFormula {c : Char} (h : startsFormula c = true) : isBlank c = false := by
  rcases startsFormula_iff.mp h with rfl | rfl | rfl | rfl <;> decide

/-- They are not format characters. -/
theorem isFormat_of_startsFormula {c : Char} (h : startsFormula c = true) :
    isFormat c = false := by
  rcases startsFormula_iff.mp h with rfl | rfl | rfl | rfl <;> decide

/-- They are not what the sheet skips. -/
theorem sheetBlanks_of_startsFormula {c : Char} (h : startsFormula c = true) :
    c ∉ sheetBlanks := by
  rcases startsFormula_iff.mp h with rfl | rfl | rfl | rfl <;> decide

section Skipping

variable {skip : Char → Bool} {cell : GoString}

/-- Skipping finds the start of a formula where there is one to find. -/
theorem startsAfter_iff (hskip : ∀ c, startsFormula c = true → skip c = false) :
    (cell.dropWhile (skip ·.rune)).head?.any (startsFormula ·.rune) = true ↔
      StartsAfter skip cell := by
  induction cell with
  | nil => simp [StartsAfter]
  | cons r rest ih =>
    by_cases hr : skip r.rune = true
    · -- the first character is skipped, so the formula starts in the rest
      rw [List.dropWhile_cons_of_pos (p := fun r : GoRune => skip r.rune) hr, ih]
      constructor
      · rintro ⟨blanks, c, tail, rfl, hblanks, hc⟩
        exact ⟨r :: blanks, c, tail, rfl, List.forall_mem_cons.mpr ⟨hr, hblanks⟩, hc⟩
      · rintro ⟨blanks, c, tail, heq, hblanks, hc⟩
        cases blanks with
        | nil =>
          obtain ⟨rfl, -⟩ := List.cons.inj heq
          exact absurd hr (by simp [hskip _ hc])
        | cons b blanks =>
          obtain ⟨rfl, rfl⟩ := List.cons.inj heq
          exact ⟨blanks, c, tail, rfl, fun x hx => hblanks x (List.mem_cons_of_mem _ hx), hc⟩
    -- The first character is kept, so that it is the one that counts.
    · rw [List.dropWhile_cons_of_neg (p := fun r : GoRune => skip r.rune) hr]
      constructor
      · intro h
        exact ⟨[], r, rest, rfl, fun _ hx => absurd hx List.not_mem_nil, by simpa using h⟩
      · rintro ⟨blanks, c, tail, heq, hblanks, hc⟩
        cases blanks with
        | nil =>
          obtain ⟨rfl, -⟩ := List.cons.inj heq
          simpa using hc
        | cons b blanks =>
          obtain ⟨rfl, -⟩ := List.cons.inj heq
          exact absurd (hblanks _ List.mem_cons_self) hr

/-- What is skipped is all that stands before the first character that starts a formula. -/
theorem takeWhile_blanks {blanks rest : GoString} {c : GoRune}
    (hskip : ∀ c, startsFormula c = true → skip c = false)
    (hblanks : ∀ r ∈ blanks, skip r.rune = true) (hc : startsFormula c.rune = true) :
    (blanks ++ c :: rest).takeWhile (fun r => !startsFormula r.rune) = blanks := by
  have hplain : ∀ r ∈ blanks, (!startsFormula r.rune) = true := by
    intro r hr
    by_contra hstarts
    have hskipped := hskip r.rune (by simpa using hstarts)
    rw [hblanks r hr] at hskipped
    cases hskipped
  rw [List.takeWhile_append_of_pos hplain, List.takeWhile_cons_of_neg (by simp [hc]),
    List.append_nil]

/-- There is one start of a formula: what is skipped before it starts none. -/
theorem startsAfter_at {blanks rest : GoString} {c : GoRune}
    (hskip : ∀ c, startsFormula c = true → skip c = false)
    (hblanks : ∀ r ∈ blanks, isBlank r.rune = true) (hc : startsFormula c.rune = true) :
    StartsAfter skip (blanks ++ c :: rest) ↔ ∀ r ∈ blanks, skip r.rune = true := by
  constructor
  · rintro ⟨others, d, tail, heq, hothers, hd⟩
    have hfirst : (blanks ++ c :: rest).takeWhile (fun r => !startsFormula r.rune) = blanks :=
      takeWhile_blanks (fun _ => isBlank_of_startsFormula) hblanks hc
    rw [heq, takeWhile_blanks hskip hothers hd] at hfirst
    exact hfirst ▸ hothers
  · exact fun h => ⟨blanks, c, rest, rfl, h, hc⟩

end Skipping

/-- A cell injects when a formula begins behind its blanks. -/
theorem injects_iff {cell : GoString} : Injects cell ↔ StartsAfter isBlank cell := by
  rw [← startsAfter_iff fun _ => isBlank_of_startsFormula, Option.any_eq_true]
  rfl

/-- A cell that is quoted starts no formula. -/
theorem not_injects_quoted (cell : GoString) : ¬Injects (.char '\'' :: cell) := by
  rintro ⟨r, hr, hstarts⟩
  have hquote : isBlank (GoRune.char '\'').rune = false := by decide
  rw [List.dropWhile_cons_of_neg (by rw [hquote]; decide)] at hr
  obtain rfl := Option.some.inj hr
  exact absurd hstarts (by decide)

/-- A cell that is quoted when a formula starts after `skip`. -/
theorem injects_guarded {skip : Char → Bool} {cell : GoString}
    (hskip : ∀ c, startsFormula c = true → skip c = false) :
    Injects (if (cell.dropWhile (skip ·.rune)).head?.any (startsFormula ·.rune) then
        .char '\'' :: cell else cell) ↔ StartsAfter isBlank cell ∧ ¬StartsAfter skip cell := by
  by_cases h : (cell.dropWhile (skip ·.rune)).head?.any (startsFormula ·.rune) = true
  · rw [if_pos h]
    exact iff_of_false (not_injects_quoted cell) fun hnot =>
      hnot.2 ((startsAfter_iff hskip).mp h)
  · rw [if_neg h, injects_iff, ← startsAfter_iff hskip]
    exact (and_iff_left h).symm

/-- A neutralised cell still injects when only other blanks than those of the sheet stand before the
formula. -/
theorem injects_spreadsheetText {s : GoString} : Injects (spreadsheetText s) ↔
    StartsAfter isBlank s ∧ ¬StartsAfter (· ∈ sheetBlanks) s :=
  injects_guarded fun _ hc => decide_eq_false (sheetBlanks_of_startsFormula hc)

/-- The reservations skip all that a spreadsheet skips, so their cells start no formula. -/
theorem not_injects_reservationCell (s : GoString) : ¬Injects (reservationCell s) := by
  have hguard := @injects_guarded (fun c => isSpace c || isControl c || isFormat c) s
    fun c hc => by
      have hblank := isBlank_of_startsFormula hc
      unfold isBlank at hblank
      rw [hblank, isFormat_of_startsFormula hc]
      rfl
  intro h
  obtain ⟨⟨blanks, c, rest, heq, hblanks, hc⟩, hnot⟩ := hguard.mp h
  refine hnot ⟨blanks, c, rest, heq, fun r hr => ?_, hc⟩
  have hblank := hblanks r hr
  unfold isBlank at hblank
  show (isSpace r.rune || isControl r.rune || isFormat r.rune) = true
  rw [hblank]
  rfl

/-! ## The texts of the exports -/

/-- Making a rune safe keeps what is blank. -/
@[simp] theorem isBlank_safeRune (r : GoRune) : isBlank (safeRune r).rune = isBlank r.rune := by
  unfold safeRune
  split
  · next h =>
    rcases h with h | h <;> rw [h] <;> decide
  · rfl

/-- Making a rune safe keeps what begins a formula. -/
@[simp] theorem startsFormula_safeRune (r : GoRune) :
    startsFormula (safeRune r).rune = startsFormula r.rune := by
  unfold safeRune
  split
  · next h =>
    rcases h with h | h <;> rw [h] <;> decide
  · rfl

/-- Replacing and shortening leave a formula that starts within the first 512 characters. -/
theorem startsAfter_shortened {s : GoString} : StartsAfter isBlank ((s.map safeRune).take 512) ↔
    ∃ blanks c rest, s = blanks ++ c :: rest ∧ (∀ r ∈ blanks, isBlank r.rune = true) ∧
      startsFormula c.rune = true ∧ blanks.length < 512 := by
  constructor
  · rintro ⟨blanks, c, rest, heq, hblanks, hc⟩
    -- The formula stands within the first 512 characters.
    have hlt : blanks.length < 512 := by
      have hlen := congrArg List.length heq
      simp only [List.length_take, List.length_append, List.length_cons] at hlen
      omega
    -- The shortened cell is a prefix of the mapped one, whose characters are mapped one by one.
    have hmap := List.take_append_drop 512 (s.map safeRune)
    rw [heq, List.append_assoc] at hmap
    obtain ⟨front, back, rfl, hfront, hback⟩ := List.map_eq_append_iff.mp hmap.symm
    obtain ⟨d, tail, rfl, hd, -⟩ := List.map_eq_cons_iff.mp hback
    subst hfront hd
    rw [startsFormula_safeRune] at hc
    refine ⟨front, d, tail, rfl, fun r hr => ?_, hc, by simpa using hlt⟩
    rw [← isBlank_safeRune]
    exact hblanks _ (List.mem_map_of_mem hr)
  · rintro ⟨blanks, c, rest, rfl, hblanks, hc, hlt⟩
    refine ⟨blanks.map safeRune, safeRune c, (rest.map safeRune).take (511 - blanks.length),
      ?_, fun r hr => ?_, by rw [startsFormula_safeRune, hc]⟩
    · rw [List.map_append, List.map_cons, List.take_append, List.length_map,
        List.take_of_length_le (by rw [List.length_map]; omega),
        show 512 - blanks.length = (511 - blanks.length) + 1 by omega, List.take_succ_cons]
    · obtain ⟨d, hd, rfl⟩ := List.mem_map.mp hr
      rw [isBlank_safeRune, hblanks d hd]

/-- What the exports check looks at the first character that is not a space. -/
theorem dangerous_at {blanks rest : GoString} {c : GoRune}
    (hblanks : ∀ r ∈ blanks, r.rune ∈ sheetBlanks) (hc : startsFormula c.rune = true) :
    dangerous (blanks ++ c :: rest) = true ↔
      ∀ r ∈ blanks.find? (·.rune ≠ ' '), r.rune ≠ '\n' := by
  unfold dangerous
  rw [List.dropWhile_append]
  have hfind : blanks.find? (·.rune ≠ ' ') = (blanks.dropWhile (·.rune = ' ')).head? := by
    rw [List.find?_eq_head?_dropWhile_not]
    simp
  rw [hfind]
  cases hdrop : blanks.dropWhile (·.rune = ' ') with
  | nil =>
    -- only spaces stand before the formula, and its own character is looked at
    have hspace : c.rune ≠ ' ' := by
      intro hspace
      rw [hspace] at hc
      exact absurd hc (by decide)
    rw [List.isEmpty_nil, if_pos rfl, List.dropWhile_cons_of_neg (by simpa using hspace)]
    rcases startsFormula_iff.mp hc with h | h | h | h <;> simp [h]
  | cons b tail =>
    have hb : b ∈ blanks :=
      (List.dropWhile_suffix _).subset (hdrop ▸ List.mem_cons_self)
    have hne : b.rune ≠ ' ' := by
      have hnot := List.head?_dropWhile_not (fun r : GoRune => decide (r.rune = ' ')) blanks
      rw [hdrop] at hnot
      simpa using hnot
    have hmem := hblanks b hb
    simp only [sheetBlanks, List.mem_cons, List.not_mem_nil, or_false] at hmem
    rcases hmem with h | h | h | h
    · exact absurd h hne
    all_goals simp [h]

/-- A cell of the other export still injects when it was not seen as dangerous. -/
theorem injects_safeText {s : GoString} : Injects (safeText s) ↔
    StartsAfter isBlank ((s.map safeRune).take 512) ∧ dangerous s = false := by
  have hshort : (if (s.map safeRune).length > 512 then (s.map safeRune).take 512
      else s.map safeRune) = (s.map safeRune).take 512 := by
    split
    · rfl
    · rw [List.take_of_length_le (by omega)]
  unfold safeText
  simp only [hshort]
  cases hdanger : dangerous s with
  | true => exact iff_of_false (not_injects_quoted _) fun h => nomatch h.2
  | false => exact injects_iff.trans (and_iff_left rfl).symm

/-- The cells of the three exports start no formula if and only if what stands before a formula is
nothing but spaces, tabs and line ends, and the first of these that is not a space is no line feed
(or the formula starts too late to be exported). -/
theorem cells_neutralized_iff (s : GoString) :
    (¬Injects (safeText s) ∧ ¬Injects (spreadsheetText s) ∧ ¬Injects (reservationCell s)) ↔
      ∀ blanks c rest, s = blanks ++ c :: rest → (∀ r ∈ blanks, isBlank r.rune = true) →
        startsFormula c.rune = true →
          (∀ r ∈ blanks, r.rune ∈ sheetBlanks) ∧
            (512 ≤ blanks.length ∨ ∀ r ∈ blanks.find? (·.rune ≠ ' '), r.rune ≠ '\n') := by
  constructor
  · rintro ⟨hsafe, hsheet, -⟩ blanks c rest rfl hblanks hc
    have hstart : StartsAfter isBlank (blanks ++ c :: rest) := ⟨blanks, c, rest, rfl, hblanks, hc⟩
    -- The sheet cell is neutral, so that everything before the formula is skipped there.
    have hskipped : ∀ r ∈ blanks, r.rune ∈ sheetBlanks := by
      have hafter : StartsAfter (· ∈ sheetBlanks) (blanks ++ c :: rest) :=
        not_not.mp fun hnot => hsheet (injects_spreadsheetText.mpr ⟨hstart, hnot⟩)
      have hall := (startsAfter_at
        (fun _ hd => decide_eq_false (sheetBlanks_of_startsFormula hd)) hblanks hc).mp hafter
      exact fun r hr => of_decide_eq_true (hall r hr)
    refine ⟨hskipped, ?_⟩
    -- A cell that the export shows and does not guard would inject.
    by_contra hnot
    obtain ⟨hlt, hline⟩ := not_or.mp hnot
    have hshown := startsAfter_shortened.mpr
      ⟨blanks, c, rest, rfl, hblanks, hc, Nat.lt_of_not_le hlt⟩
    have hdanger : dangerous (blanks ++ c :: rest) = false :=
      Bool.eq_false_iff.mpr fun h => hline ((dangerous_at hskipped hc).mp h)
    exact hsafe (injects_safeText.mpr ⟨hshown, hdanger⟩)
  -- Conversely each cell that injects contradicts the condition.
  · intro h
    refine ⟨fun hsafe => ?_, fun hsheet => ?_, not_injects_reservationCell s⟩
    · obtain ⟨hshown, hdanger⟩ := injects_safeText.mp hsafe
      obtain ⟨blanks, c, rest, heq, hblanks, hc, hlt⟩ := startsAfter_shortened.mp hshown
      obtain ⟨hskipped, hline⟩ := h blanks c rest heq hblanks hc
      have htrue : dangerous (blanks ++ c :: rest) = true :=
        (dangerous_at hskipped hc).mpr (hline.resolve_left (Nat.not_le_of_lt hlt))
      rw [← heq, hdanger] at htrue
      cases htrue
    · obtain ⟨⟨blanks, c, rest, heq, hblanks, hc⟩, hnot⟩ := injects_spreadsheetText.mp hsheet
      exact hnot ⟨blanks, c, rest, heq,
        fun r hr => decide_eq_true ((h blanks c rest heq hblanks hc).1 r hr), hc⟩

/-- A formula after a no-break space is shown by two of the exports as it is. -/
theorem cells_neutralized_not_nbsp : ¬∀ s : GoString,
    ¬Injects (safeText s) ∧ ¬Injects (spreadsheetText s) ∧ ¬Injects (reservationCell s) := by
  intro h
  exact (h [.char '\u00a0', .char '=']).2.1 (by decide)

end LedgerSync
