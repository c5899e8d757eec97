import Mathlib.Data.List.Basic
import Mathlib.Data.List.DropRight

/-!
# Lines of a text

A text is cut at its line feeds, and a line that ends with a carriage return may be meant to end
before it. Two ways to read the lines are common: to replace every carriage return and line feed by
a line feed first and to cut the text then, and to cut the text first and to take one carriage
return from the end of every line. `Written` says that a text writes given lines, each ended by
either of the two line ends, the last of which may be missing. Both readings find the lines that are
written; the second also takes one carriage return at the very end for part of a line end
(`written_iff_replaced`, `written_iff_cut`). Such a text is, up to its line ends, the lines joined
by line feeds (`Written.joined`).
-/

namespace LedgerSync.Lib

/-- A line that has something in it, and no part of a line end. -/
structure PlainLine (l : List Char) : Prop where
  ne_nil : l ≠ []
  lf : '\n' ∉ l
  cr : '\r' ∉ l

/-- The text writes the lines, each with a line end but perhaps the last. -/
inductive Written : List (List Char) → List Char → Prop
  | nil : Written [] []
  | last {l : List Char} (hl : l ≠ []) : Written [l] l
  | lf {l : List Char} {ls : List (List Char)} {rest : List Char} (h : Written ls rest) :
      Written (l :: ls) (l ++ '\n' :: rest)
  | crlf {l : List Char} {ls : List (List Char)} {rest : List Char} (h : Written ls rest) :
      Written (l :: ls) (l ++ '\r' :: '\n' :: rest)

/-- The text with every carriage return before a line feed taken out. -/
def replaceCrlf : List Char → List Char
  | [] => []
  | c :: cs => if c = '\r' ∧ cs.head? = some '\n' then replaceCrlf cs else c :: replaceCrlf cs

/-- The line without one carriage return at its end. -/
def dropCr (l : List Char) : List Char := if l.getLast? = some '\r' then l.dropLast else l

/-- The lines of a text, without an empty one after the last line end. -/
def cutLines (text : List Char) : List (List Char) :=
  let ls := text.splitOn '\n'
  if ls.getLast? = some [] then ls.dropLast else ls

/-- Every text is a line without line feeds, or such a line, a line feed and a text. -/
theorem lines_induction {P : List Char → Prop} (last : ∀ l, '\n' ∉ l → P l)
    (line : ∀ l rest, '\n' ∉ l → P rest → P (l ++ '\n' :: rest)) (text : List Char) : P text := by
  -- The line that is read so far is generalised over.
  have hread : ∀ (text acc : List Char), '\n' ∉ acc → P (acc ++ text) ∧ P text := by
    intro text
    induction text with
    | nil =>
      intro acc hacc
      rw [List.append_nil]
      exact ⟨last acc hacc, last [] List.not_mem_nil⟩
    | cons c cs ih =>
      intro acc hacc
      by_cases hc : c = '\n'
      · subst hc
        have hrest := (ih [] List.not_mem_nil).2
        exact ⟨line acc cs hacc hrest, line [] cs List.not_mem_nil hrest⟩
      · have hmem : ∀ l, '\n' ∉ l → '\n' ∉ l ++ [c] := by
          intro l hl
          simp [hl, Ne.symm hc]
        have hacc' := (ih (acc ++ [c]) (hmem acc hacc)).1
        have hnil' := (ih [c] (hmem [] List.not_mem_nil)).1
        rw [List.append_assoc] at hacc'
        exact ⟨hacc', hnil'⟩
  exact (hread text [] List.not_mem_nil).2

section

variable {l rest text : List Char} {ls : List (List Char)}

/-- A text without a line feed is its last line. -/
theorem splitOn_last (hl : '\n' ∉ l) : l.splitOn '\n' = [l] :=
  List.splitOn_eq_singleton hl

/-- A line feed ends the first line. -/
theorem splitOn_line (hl : '\n' ∉ l) :
    (l ++ '\n' :: rest).splitOn '\n' = l :: rest.splitOn '\n' :=
  List.splitOn_append_cons_self_of_not_mem hl rest

/-- An empty line has no carriage return. -/
@[simp]
theorem dropCr_nil : dropCr [] = [] := rfl

/-- The carriage return at the end of a line is dropped. -/
@[simp]
theorem dropCr_append_cr (l : List Char) : dropCr (l ++ ['\r']) = l := by
  simp [dropCr]

/-- A line without a carriage return stays. -/
theorem dropCr_of_not_mem (h : '\r' ∉ l) : dropCr l = l := by
  rw [dropCr, if_neg]
  intro hlast
  exact h (List.mem_of_getLast? hlast)

/-- A line is without its carriage return as it is, or ends with one. -/
theorem dropCr_cases (l : List Char) : dropCr l = l ∨ l = dropCr l ++ ['\r'] := by
  by_cases h : l.getLast? = some '\r'
  · right
    rw [dropCr, if_pos h]
    obtain ⟨l', rfl⟩ := List.getLast?_eq_some_iff.mp h
    simp
  · left
    rw [dropCr, if_neg h]

/-- A text without a line feed has nothing to replace. -/
theorem replaceCrlf_of_not_mem (hl : '\n' ∉ l) : replaceCrlf l = l := by
  induction l with
  | nil => rfl
  | cons c cs ih =>
    rw [List.mem_cons, not_or] at hl
    have hhead : ¬(c = '\r' ∧ cs.head? = some '\n') := by
      rintro ⟨-, hcs⟩
      exact hl.2 (List.mem_of_head? hcs)
    rw [replaceCrlf, if_neg hhead, ih hl.2]

/-- The first line loses its carriage return, and the rest is treated alike. -/
theorem replaceCrlf_line (hl : '\n' ∉ l) :
    replaceCrlf (l ++ '\n' :: rest) = dropCr l ++ '\n' :: replaceCrlf rest := by
  induction l with
  | nil => simp [replaceCrlf]
  | cons c cs ih =>
    rw [List.mem_cons, not_or] at hl
    rw [List.cons_append, replaceCrlf, ih hl.2]
    rcases cs with _ | ⟨d, ds⟩
    · -- The line has one character, and that is dropped where it is a carriage return.
      by_cases hc : c = '\r'
      · subst hc
        simp [dropCr]
      · simp [dropCr, hc]
    -- The line goes on, so that its first character stays whatever the next one is.
    · have hd : d ≠ '\n' := by
        rintro rfl
        exact hl.2 List.mem_cons_self
      have hkeep : dropCr (c :: d :: ds) = c :: dropCr (d :: ds) := by
        simp only [dropCr, List.getLast?_cons_cons]
        split_ifs <;> rfl
      rw [if_neg (by simp [hd]), hkeep, List.cons_append]

/-- A text without a line feed is one line, or none when it is empty. -/
theorem cutLines_last (hl : '\n' ∉ l) : cutLines l = if l = [] then [] else [l] := by
  simp only [cutLines, splitOn_last hl, List.getLast?_singleton, Option.some.injEq]
  split_ifs <;> rfl

/-- A line feed cuts the first line off. -/
theorem cutLines_line (hl : '\n' ∉ l) : cutLines (l ++ '\n' :: rest) = l :: cutLines rest := by
  have hne := List.splitOn_ne_nil '\n' rest
  simp only [cutLines, splitOn_line hl]
  rcases hrest : rest.splitOn '\n' with _ | ⟨x, xs⟩
  · exact absurd hrest hne
  · simp only [List.getLast?_cons_cons]
    split_ifs <;> rfl

/-- Texts that begin with a line and a line feed begin with the same line. -/
theorem line_inj {l l' rest rest' : List Char} (hl : '\n' ∉ l) (hl' : '\n' ∉ l')
    (h : l ++ '\n' :: rest = l' ++ '\n' :: rest') : l = l' ∧ rest = rest' := by
  have hsplit := congrArg (List.splitOn '\n') h
  have htake : l = l' := by
    rw [splitOn_line hl, splitOn_line hl'] at hsplit
    exact (List.cons.inj hsplit).1
  subst htake
  exact ⟨rfl, (List.cons.inj (List.append_cancel_left h)).2⟩

/-- A text without a line feed writes its one line, or none. -/
theorem written_last_iff (hl : '\n' ∉ l) :
    Written ls l ↔ ls = if l = [] then [] else [l] := by
  constructor
  · intro h
    cases h with
    | nil => rfl
    | last hne => rw [if_neg hne]
    | lf _ => exact absurd (by simp) hl
    | crlf _ => exact absurd (by simp) hl
  · rintro rfl
    split_ifs with h
    · subst h
      exact .nil
    · exact .last h

/-- A text with a line feed writes its first line and then the others. -/
theorem written_line_iff (hl : '\n' ∉ l) (hplain : ∀ x ∈ ls, PlainLine x) :
    Written ls (l ++ '\n' :: rest) ↔ ∃ ls', ls = dropCr l :: ls' ∧ Written ls' rest := by
  constructor
  · intro h
    generalize htext : l ++ '\n' :: rest = text at h
    -- The first line is empty, the last, or ended by a line feed with or without a return.
    cases h with
    | nil => simp at htext
    | last hne =>
      have hx := (hplain text List.mem_cons_self).lf
      rw [← htext] at hx
      simp at hx
    | @lf x ls' rest' h =>
      have hx := hplain x List.mem_cons_self
      obtain ⟨rfl, rfl⟩ := line_inj hl hx.lf htext
      exact ⟨ls', by rw [dropCr_of_not_mem hx.cr], h⟩
    | @crlf x ls' rest' h =>
      have hx := hplain x List.mem_cons_self
      have hxcr : '\n' ∉ x ++ ['\r'] := by simp [hx.lf]
      obtain ⟨rfl, rfl⟩ := line_inj hl hxcr (by simpa using htext)
      exact ⟨ls', by rw [dropCr_append_cr], h⟩
  · rintro ⟨ls', rfl, h⟩
    -- The line has a carriage return at its end or has none.
    rcases dropCr_cases l with hsame | hcr
    · rw [hsame]
      exact .lf h
    · have htext : l ++ '\n' :: rest = dropCr l ++ '\r' :: '\n' :: rest := by
        conv_lhs => rw [hcr]
        simp
      rw [htext]
      exact .crlf h

/-- Replacing the line ends first: the lines are found, and no carriage return is left. -/
theorem written_iff_replaced (hplain : ∀ x ∈ ls, PlainLine x) :
    Written ls text ↔ '\r' ∉ replaceCrlf text ∧ cutLines (replaceCrlf text) = ls := by
  -- The induction is on the lines of the text.
  induction text using lines_induction generalizing ls with
  | last l hl =>
    rw [written_last_iff hl, replaceCrlf_of_not_mem hl, cutLines_last hl]
    constructor
    · intro h
      refine ⟨?_, h.symm⟩
      split_ifs at h with hnil
      · subst hnil
        exact List.not_mem_nil
      · exact (hplain l (by rw [h]; exact List.mem_singleton_self l)).cr
    · rintro ⟨-, h⟩
      exact h.symm
  | line l rest hl ih =>
    -- Dropping a carriage return adds no line feed.
    have hlf : '\n' ∉ dropCr l := by
      rcases dropCr_cases l with h | h
      · rwa [h]
      · rw [h] at hl
        simpa using hl
    rw [written_line_iff hl hplain, replaceCrlf_line hl, cutLines_line hlf]
    -- The first line is split off on both sides, and the rest is the induction hypothesis.
    constructor
    · rintro ⟨ls', rfl, h⟩
      obtain ⟨hcr, hcut⟩ := (ih fun x hx => hplain x (List.mem_cons_of_mem _ hx)).mp h
      have hfirst := (hplain (dropCr l) List.mem_cons_self).cr
      exact ⟨by simp [hfirst, hcr], by rw [hcut]⟩
    · rintro ⟨hcr, rfl⟩
      simp only [List.mem_append, List.mem_cons, not_or] at hcr
      exact ⟨_, rfl, (ih fun x hx => hplain x (List.mem_cons_of_mem _ hx)).mpr ⟨hcr.2.2, rfl⟩⟩

/-- No line but the last is empty. -/
def NoBlank (text : List Char) : Prop :=
  ∀ l ∈ ((replaceCrlf text).splitOn '\n').dropLast, l ≠ []

/-- A last line without a line feed is not blank. -/
theorem noBlank_last (hl : '\n' ∉ l) : NoBlank l := by
  simp [NoBlank, replaceCrlf_of_not_mem hl, splitOn_last hl]

/-- The first line must not be blank, and so for the rest. -/
theorem noBlank_line (hl : '\n' ∉ l) :
    NoBlank (l ++ '\n' :: rest) ↔ dropCr l ≠ [] ∧ NoBlank rest := by
  have hlf : '\n' ∉ dropCr l := by
    rcases dropCr_cases l with h | h
    · rwa [h]
    · rw [h] at hl
      simpa using hl
  have hne := List.splitOn_ne_nil '\n' (replaceCrlf rest)
  rw [NoBlank, NoBlank, replaceCrlf_line hl, splitOn_line hlf, List.dropLast_cons_of_ne_nil hne]
  simp

/-- Cutting the text first: the lines are found, and one carriage return may stand at the very end.
-/
theorem written_iff_cut (hplain : ∀ x ∈ ls, PlainLine x) :
    (NoBlank text ∧ ((text.splitOn '\n').map dropCr).filter (· ≠ []) = ls) ↔
      Written ls text ∨ ∃ text', text = text' ++ ['\r'] ∧ Written ls text' := by
  induction text using lines_induction generalizing ls with
  | last l hl =>
    have hcut : ((l.splitOn '\n').map dropCr).filter (· ≠ []) =
        if dropCr l = [] then [] else [dropCr l] := by
      rw [splitOn_last hl]
      by_cases h : dropCr l = [] <;> simp [h]
    rw [hcut, and_iff_right (noBlank_last hl), written_last_iff hl]
    rcases dropCr_cases l with hsame | hcr
    · -- A line that ends with no carriage return.
      rw [hsame]
      have hnot : ¬∃ text', l = text' ++ ['\r'] ∧ Written ls text' := by
        rintro ⟨text', rfl, -⟩
        rw [dropCr_append_cr] at hsame
        simpa using congrArg List.length hsame
      rw [or_iff_left hnot]
      exact eq_comm
    -- A line that ends with a carriage return: only the second alternative is left.
    · have hprefix : '\n' ∉ dropCr l := by
        rw [hcr] at hl
        simpa using hl
      have hnot : ¬ls = if l = [] then [] else [l] := by
        intro h
        have hne : l ≠ [] := by
          rw [hcr]
          simp
        rw [if_neg hne] at h
        have hplainl := (hplain l (by rw [h]; exact List.mem_singleton_self l)).cr
        rw [hcr] at hplainl
        simp at hplainl
      rw [or_iff_right hnot]
      constructor
      · intro h
        refine ⟨dropCr l, hcr, ?_⟩
        rw [written_last_iff hprefix]
        exact h.symm
      · rintro ⟨text', htext, h⟩
        have hsame : text' = dropCr l := by
          rw [htext, dropCr_append_cr]
        rw [hsame, written_last_iff hprefix] at h
        exact h.symm
  | line l rest hl ih =>
    have hsplit : (((l ++ '\n' :: rest).splitOn '\n').map dropCr).filter (· ≠ []) =
        if dropCr l = [] then ((rest.splitOn '\n').map dropCr).filter (· ≠ [])
        else dropCr l :: ((rest.splitOn '\n').map dropCr).filter (· ≠ []) := by
      rw [splitOn_line hl, List.map_cons]
      by_cases h : dropCr l = [] <;> simp [h]
    rw [hsplit, noBlank_line hl]
    -- A carriage return at the very end belongs to the rest.
    have htail : (∃ text', l ++ '\n' :: rest = text' ++ ['\r'] ∧ Written ls text') ↔
        ∃ rest', rest = rest' ++ ['\r'] ∧ Written ls (l ++ '\n' :: rest') := by
      constructor
      · rintro ⟨text', htext, h⟩
        rcases List.eq_nil_or_concat' rest with rfl | ⟨rest', c, rfl⟩
        · have := congrArg List.getLast? htext
          simp at this
        · have hconcat : (l ++ '\n' :: rest') ++ [c] = text' ++ ['\r'] := by simpa using htext
          obtain ⟨hcancel, hc⟩ := List.append_inj' hconcat rfl
          cases hc
          exact ⟨rest', rfl, hcancel ▸ h⟩
      · rintro ⟨rest', rfl, h⟩
        exact ⟨l ++ '\n' :: rest', by simp, h⟩
    rw [htail, written_line_iff hl hplain]
    simp only [written_line_iff hl hplain]
    -- The blank lines are dropped on one side and excluded on the other.
    constructor
    · rintro ⟨⟨hne, hblank⟩, hcut⟩
      rw [if_neg hne] at hcut
      subst hcut
      have hrest := (ih fun x hx => hplain x (List.mem_cons_of_mem _ hx)).mp ⟨hblank, rfl⟩
      rcases hrest with h | ⟨rest', htext, h⟩
      · exact .inl ⟨_, rfl, h⟩
      · exact .inr ⟨rest', htext, _, rfl, h⟩
    · intro h
      have hsome : ∃ ls', ls = dropCr l :: ls' ∧
          (Written ls' rest ∨ ∃ rest', rest = rest' ++ ['\r'] ∧ Written ls' rest') := by
        rcases h with ⟨ls', hls, h⟩ | ⟨rest', htext, ls', hls, h⟩
        · exact ⟨ls', hls, .inl h⟩
        · exact ⟨ls', hls, .inr ⟨rest', htext, h⟩⟩
      obtain ⟨ls', rfl, hrest⟩ := hsome
      have hne := (hplain (dropCr l) List.mem_cons_self).ne_nil
      obtain ⟨hblank, hcut⟩ := (ih fun x hx => hplain x (List.mem_cons_of_mem _ hx)).mpr hrest
      exact ⟨⟨hne, hblank⟩, by rw [if_neg hne, hcut]⟩

/-- A text that writes plain lines does not end with a carriage return. -/
theorem Written.getLast_ne_cr (h : Written ls text) (hplain : ∀ x ∈ ls, PlainLine x) :
    text.getLast? ≠ some '\r' := by
  induction h with
  | nil => simp
  | @last l _ =>
    intro hlast
    exact (hplain l List.mem_cons_self).cr (List.mem_of_getLast? hlast)
  | @lf l ls rest h ih =>
    have hrest := ih fun x hx => hplain x (List.mem_cons_of_mem _ hx)
    rcases rest with _ | ⟨c, cs⟩
    · simp
    · simpa using hrest
  | @crlf l ls rest h ih =>
    have hrest := ih fun x hx => hplain x (List.mem_cons_of_mem _ hx)
    rcases rest with _ | ⟨c, cs⟩
    · simp
    · simpa using hrest

/-- A character of a text that writes lines is one of a line, or part of a line end. -/
theorem Written.mem (h : Written ls text) {c : Char} (hc : c ∈ text) :
    c = '\n' ∨ c = '\r' ∨ ∃ l ∈ ls, c ∈ l := by
  -- Each constructor adds the characters of one line and of its end.
  induction h with
  | nil => cases hc
  | last _ => exact .inr (.inr ⟨_, List.mem_singleton_self _, hc⟩)
  | @lf l ls rest _ ih =>
    rw [List.mem_append, List.mem_cons] at hc
    rcases hc with hc | rfl | hc
    · exact .inr (.inr ⟨l, List.mem_cons_self, hc⟩)
    · exact .inl rfl
    · rcases ih hc with h | h | ⟨x, hx, hcx⟩
      · exact .inl h
      · exact .inr (.inl h)
      · exact .inr (.inr ⟨x, List.mem_cons_of_mem _ hx, hcx⟩)
  | @crlf l ls rest _ ih =>
    rw [List.mem_append, List.mem_cons, List.mem_cons] at hc
    rcases hc with hc | rfl | rfl | hc
    · exact .inr (.inr ⟨l, List.mem_cons_self, hc⟩)
    · exact .inr (.inl rfl)
    · exact .inl rfl
    · rcases ih hc with h | h | ⟨x, hx, hcx⟩
      · exact .inl h
      · exact .inr (.inl h)
      · exact .inr (.inr ⟨x, List.mem_cons_of_mem _ hx, hcx⟩)

/-- The replacement adds no characters. -/
theorem mem_of_mem_replaceCrlf {c : Char} (h : c ∈ replaceCrlf text) : c ∈ text := by
  induction text with
  | nil => exact h
  | cons x xs ih =>
    unfold replaceCrlf at h
    split_ifs at h
    · exact List.mem_cons_of_mem _ (ih h)
    · rcases List.mem_cons.mp h with rfl | h
      · exact List.mem_cons_self
      · exact List.mem_cons_of_mem _ (ih h)

/-! ## Texts without their line ends -/

/-- What is dropped at the end of two lists is dropped from the second, and from the first only when
nothing of the second is left. -/
theorem rdropWhile_append {α : Type*} (p : α → Bool) (as bs : List α) :
    (as ++ bs).rdropWhile p =
      if bs.rdropWhile p = [] then as.rdropWhile p else as ++ bs.rdropWhile p := by
  simp only [List.rdropWhile, List.reverse_append, List.dropWhile_append, List.reverse_eq_nil_iff]
  by_cases h : bs.reverse.dropWhile p = []
  · simp [h]
  · simp [h]

/-- A part of a line end. -/
def isLineEnd (c : Char) : Bool := c = '\r' ∨ c = '\n'

/-- A carriage return at the end of the text stays. -/
theorem replaceCrlf_append_cr (text : List Char) :
    replaceCrlf (text ++ ['\r']) = replaceCrlf text ++ ['\r'] := by
  induction text using lines_induction with
  | last l hl =>
    have hcr : '\n' ∉ l ++ ['\r'] := by simp [hl]
    rw [replaceCrlf_of_not_mem hcr, replaceCrlf_of_not_mem hl]
  | line l rest hl ih =>
    rw [List.append_assoc, List.cons_append, replaceCrlf_line hl, replaceCrlf_line hl, ih,
      List.append_assoc, List.cons_append]

/-- A plain line does not end with a part of a line end. -/
theorem PlainLine.rdropWhile (h : PlainLine l) : l.rdropWhile isLineEnd = l := by
  rw [List.rdropWhile_eq_self_iff]
  intro hne hend
  have hmem := List.getLast_mem hne
  rcases of_decide_eq_true hend with hcr | hlf
  · exact h.cr (hcr ▸ hmem)
  · exact h.lf (hlf ▸ hmem)

/-- What a line and a line feed before a text come to without the line ends at the end. -/
theorem rdropWhile_line {joined : List Char} (hl : PlainLine l) (hplain : ∀ x ∈ ls, PlainLine x)
    (h : joined.rdropWhile isLineEnd = ['\n'].intercalate ls) :
    (l ++ '\n' :: joined).rdropWhile isLineEnd = ['\n'].intercalate (l :: ls) := by
  have hline : (l ++ ['\n']).rdropWhile isLineEnd = l := by
    rw [List.rdropWhile_concat_pos _ _ _ rfl, hl.rdropWhile]
  rw [← List.singleton_append, ← List.append_assoc, rdropWhile_append, h, hline]
  rcases ls with _ | ⟨x, xs⟩
  · rw [List.intercalate_nil, if_pos rfl, List.intercalate_singleton]
  · have hne : ['\n'].intercalate (x :: xs) ≠ [] := by
      have hx := (hplain x List.mem_cons_self).ne_nil
      rcases xs with _ | ⟨y, ys⟩
      · rwa [List.intercalate_singleton]
      · rw [List.intercalate_cons_cons, List.append_assoc]
        exact List.append_ne_nil_of_left_ne_nil hx _
    rw [if_neg hne, List.intercalate_cons_cons, List.append_assoc]

/-- A text that writes plain lines is, up to its line ends, the lines joined by line feeds. -/
theorem Written.joined (h : Written ls text) (hplain : ∀ x ∈ ls, PlainLine x) :
    (replaceCrlf text).rdropWhile isLineEnd = ['\n'].intercalate ls := by
  induction h with
  | nil => rfl
  | @last l hne =>
    have hl := hplain l List.mem_cons_self
    rw [replaceCrlf_of_not_mem hl.lf, hl.rdropWhile, List.intercalate_singleton]
  | @lf l ls rest _ ih =>
    have hl := hplain l List.mem_cons_self
    have hrest := fun x hx => hplain x (List.mem_cons_of_mem _ hx)
    rw [replaceCrlf_line hl.lf, dropCr_of_not_mem hl.cr]
    exact rdropWhile_line hl hrest (ih hrest)
  | @crlf l ls rest _ ih =>
    have hl := hplain l List.mem_cons_self
    have hrest := fun x hx => hplain x (List.mem_cons_of_mem _ hx)
    -- The carriage return of the ending is dropped with it.
    have hcr : '\n' ∉ l ++ ['\r'] := by simp [hl.lf]
    have hsplit : l ++ '\r' :: '\n' :: rest = (l ++ ['\r']) ++ '\n' :: rest := by
      rw [List.append_assoc, List.singleton_append]
    rw [hsplit, replaceCrlf_line hcr, dropCr_append_cr]
    exact rdropWhile_line hl hrest (ih hrest)

end

end LedgerSync.Lib
