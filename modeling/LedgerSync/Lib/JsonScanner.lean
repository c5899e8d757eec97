import Mathlib.Data.Nat.Notation
import Mathlib.Data.List.Basic

/-!
# A scanner for JSON texts

A state machine that reads a text one character at a time and accepts it when it is one JSON value,
as `encoding/json` does it: the state says what may come next, and a stack says which objects and
arrays are open, at most `maxNestingDepth` of them. A character inside a string may be any but a
quote, a backslash and the control characters. The rules for the pieces of a text say where the
scanner stands behind each piece, and so compose to whole values. Behind an object only blanks may
stand (`jsonValid_object_append`).
-/

namespace LedgerSync.Lib

/-- `maxNestingDepth`. -/
def maxNestingDepth : ℕ := 10000

/-- What is open: an object before the colon of a field, an object behind it, or an array. -/
inductive ParseState where
  | objectKey
  | objectValue
  | arrayValue
deriving DecidableEq

/-- What may come next. -/
inductive ScanState where
  | beginValueOrEmpty
  | beginValue
  | beginStringOrEmpty
  | beginString
  | endValue
  | endTop
  | inString
  | inStringEsc
  | inStringEscU (left : ℕ)
  | neg
  | nonzero
  | zero
  | dot
  | fraction
  | exponent
  | exponentSign
  | exponentDigits
  | word (rest : List Char)
deriving DecidableEq

/-- The scanner: its state, and what is open, the innermost first. -/
structure Scanner where
  state : ScanState
  parseState : List ParseState
deriving DecidableEq

/-- `isSpace`. -/
def isJsonSpace (c : Char) : Bool := c = ' ' || c = '\t' || c = '\r' || c = '\n'

/-- A digit of an escape. -/
def isJsonHex (c : Char) : Bool :=
  ('0' ≤ c && c ≤ '9') || ('a' ≤ c && c ≤ 'f') || ('A' ≤ c && c ≤ 'F')

/-- The characters behind a backslash, besides `u`. -/
def jsonEscapes : List Char := ['b', 'f', 'n', 'r', 't', '\\', '/', '"']

namespace Scanner

variable (open' : List ParseState) (c : Char)

/-- `pushParseState`. -/
def push (p : ParseState) (next : ScanState) : Option Scanner :=
  if open'.length + 1 ≤ maxNestingDepth then some ⟨next, p :: open'⟩ else none

/-- `popParseState`. -/
def pop : List ParseState → Scanner
  | [] => ⟨.endTop, []⟩
  | p :: rest => ⟨.endValue, p :: rest⟩

/-- `stateBeginValue`. -/
def stepBeginValue : Option Scanner :=
  if isJsonSpace c then some ⟨.beginValue, open'⟩
  else if c = '\x7b' then push open' .objectKey .beginStringOrEmpty
  else if c = '[' then push open' .arrayValue .beginValueOrEmpty
  else if c = '"' then some ⟨.inString, open'⟩
  else if c = '-' then some ⟨.neg, open'⟩
  else if c = '0' then some ⟨.zero, open'⟩
  else if c = 't' then some ⟨.word ['r', 'u', 'e'], open'⟩
  else if c = 'f' then some ⟨.word ['a', 'l', 's', 'e'], open'⟩
  else if c = 'n' then some ⟨.word ['u', 'l', 'l'], open'⟩
  else if '1' ≤ c && c ≤ '9' then some ⟨.nonzero, open'⟩
  else none

/-- `stateBeginString`. -/
def stepBeginString : Option Scanner :=
  if isJsonSpace c then some ⟨.beginString, open'⟩
  else if c = '"' then some ⟨.inString, open'⟩
  else none

/-- `stateEndValue`, and `stateEndTop` when nothing is open. -/
def stepEndValue : List ParseState → Option Scanner
  | [] => if isJsonSpace c then some ⟨.endTop, []⟩ else none
  | p :: rest =>
    if isJsonSpace c then some ⟨.endValue, p :: rest⟩
    else match p with
      | .objectKey => if c = ':' then some ⟨.beginValue, .objectValue :: rest⟩ else none
      | .objectValue =>
        if c = ',' then some ⟨.beginString, .objectKey :: rest⟩
        else if c = '\x7d' then some (pop rest) else none
      | .arrayValue =>
        if c = ',' then some ⟨.beginValue, .arrayValue :: rest⟩
        else if c = ']' then some (pop rest) else none

/-- A place where a digit has to stand. -/
def stepDigit (next : ScanState) : Option Scanner :=
  if c.isDigit then some ⟨next, open'⟩ else none

/-- The exponent of a number may begin, or the number ends. -/
def stepExponent : Option Scanner :=
  if c = 'e' || c = 'E' then some ⟨.exponent, open'⟩ else stepEndValue c open'

/-- `state0`. -/
def stepZero : Option Scanner :=
  if c = '.' then some ⟨.dot, open'⟩ else stepExponent open' c

/-- One character. -/
def step (s : Scanner) (c : Char) : Option Scanner :=
  match s.state with
  | .beginValueOrEmpty =>
    if isJsonSpace c then some s
    else if c = ']' then stepEndValue c s.parseState
    else stepBeginValue s.parseState c
  | .beginValue => stepBeginValue s.parseState c
  | .beginStringOrEmpty =>
    if isJsonSpace c then some s
    else if c = '\x7d' then stepEndValue c (.objectValue :: s.parseState.tail)
    else stepBeginString s.parseState c
  | .beginString => stepBeginString s.parseState c
  | .endValue => stepEndValue c s.parseState
  | .endTop => stepEndValue c []
  | .inString =>
    if c = '"' then some ⟨.endValue, s.parseState⟩
    else if c = '\\' then some ⟨.inStringEsc, s.parseState⟩
    else if c.toNat < 32 then none
    else some s
  | .inStringEsc =>
    if c ∈ jsonEscapes then some ⟨.inString, s.parseState⟩
    else if c = 'u' then some ⟨.inStringEscU 3, s.parseState⟩
    else none
  | .inStringEscU left =>
    if isJsonHex c then
      some ⟨if left = 0 then .inString else .inStringEscU (left - 1), s.parseState⟩
    else none
  | .neg =>
    if c = '0' then some ⟨.zero, s.parseState⟩
    else if '1' ≤ c && c ≤ '9' then some ⟨.nonzero, s.parseState⟩
    else none
  | .nonzero => if c.isDigit then some s else stepZero s.parseState c
  | .zero => stepZero s.parseState c
  | .dot => stepDigit s.parseState c .fraction
  | .fraction => if c.isDigit then some s else stepExponent s.parseState c
  | .exponent =>
    if c = '+' || c = '-' then some ⟨.exponentSign, s.parseState⟩
    else stepDigit s.parseState c .exponentDigits
  | .exponentSign => stepDigit s.parseState c .exponentDigits
  | .exponentDigits => if c.isDigit then some s else stepEndValue c s.parseState
  | .word [] => none
  | .word [x] => if c = x then some ⟨.endValue, s.parseState⟩ else none
  | .word (x :: y :: rest) => if c = x then some ⟨.word (y :: rest), s.parseState⟩ else none

/-- `eof`: the value is complete, perhaps with one more blank. -/
def atEnd (s : Scanner) : Bool :=
  s.state = .endTop || (s.step ' ').any fun t => t.state = .endTop

/-- The rest of a text completes the value. -/
def accepts (s : Scanner) : List Char → Bool
  | [] => s.atEnd
  | c :: cs => match s.step c with
    | none => false
    | some t => t.accepts cs

end Scanner

/-- `json.Valid`. -/
def jsonValid (text : List Char) : Bool := (⟨.beginValue, []⟩ : Scanner).accepts text

/-! ## The pieces of a text -/

/-- A piece of a text inside quotes: a character as it is, or an escape. -/
inductive StringPiece : List Char → Prop
  | plain {c : Char} (quote : c ≠ '"') (backslash : c ≠ '\\') (control : 32 ≤ c.toNat) :
      StringPiece [c]
  | escape {c : Char} (mem : c ∈ jsonEscapes) : StringPiece ['\\', c]
  | unicode {w x y z : Char} (hex : ∀ c ∈ [w, x, y, z], isJsonHex c = true) :
      StringPiece ['\\', 'u', w, x, y, z]

section Pieces

variable {open' : List ParseState} {piece rest : List Char}

namespace Scanner

/-- A character that is accepted leaves the rest to the next state. -/
theorem accepts_cons {s t : Scanner} {c : Char} (h : s.step c = some t) (rest : List Char) :
    s.accepts (c :: rest) = t.accepts rest := by
  rw [accepts, h]

/-- Inside quotes, a piece changes nothing. -/
theorem accepts_piece (h : StringPiece piece) :
    (⟨.inString, open'⟩ : Scanner).accepts (piece ++ rest) =
      (⟨.inString, open'⟩ : Scanner).accepts rest := by
  -- A plain character, a short escape, or four hexadecimal digits.
  cases h with
  | @plain c quote backslash control =>
    have hcontrol : ¬c.toNat < 32 := Nat.not_lt.mpr control
    have hplain : step ⟨.inString, open'⟩ c = some ⟨.inString, open'⟩ := by
      simp only [step, if_neg quote, if_neg backslash, if_neg hcontrol]
    exact accepts_cons hplain rest
  | @escape c mem =>
    have hescape : step ⟨.inStringEsc, open'⟩ c = some ⟨.inString, open'⟩ := if_pos mem
    show (⟨.inString, open'⟩ : Scanner).accepts ('\\' :: c :: rest) = _
    rw [accepts_cons (show step ⟨.inString, open'⟩ '\\' = some ⟨.inStringEsc, open'⟩ from rfl),
      accepts_cons hescape]
  | @unicode w x y z hex =>
    have hdigit : ∀ c ∈ [w, x, y, z], ∀ left, step ⟨.inStringEscU (left + 1), open'⟩ c =
        some ⟨.inStringEscU left, open'⟩ := fun c hc left => if_pos (hex c hc)
    have hlast : step ⟨.inStringEscU 0, open'⟩ z = some ⟨.inString, open'⟩ :=
      if_pos (hex z (by simp))
    show (⟨.inString, open'⟩ : Scanner).accepts ('\\' :: 'u' :: w :: x :: y :: z :: rest) = _
    rw [accepts_cons (show step ⟨.inString, open'⟩ '\\' = some ⟨.inStringEsc, open'⟩ from rfl),
      accepts_cons (show step ⟨.inStringEsc, open'⟩ 'u' = some ⟨.inStringEscU 3, open'⟩ from rfl),
      accepts_cons (hdigit w (by simp) 2), accepts_cons (hdigit x (by simp) 1),
      accepts_cons (hdigit y (by simp) 0), accepts_cons hlast]

/-- Inside quotes, pieces and the quote behind them end a value. -/
theorem accepts_pieces {pieces : List (List Char)} (h : ∀ p ∈ pieces, StringPiece p) :
    (⟨.inString, open'⟩ : Scanner).accepts (pieces.flatten ++ '"' :: rest) =
      (⟨.endValue, open'⟩ : Scanner).accepts rest := by
  induction pieces with
  | nil => exact accepts_cons (by simp only [step, if_true]) rest
  | cons p ps ih =>
    rw [List.flatten_cons, List.append_assoc, accepts_piece (h p List.mem_cons_self)]
    exact ih fun q hq => h q (List.mem_cons_of_mem _ hq)

/-- A text in quotes is a value. -/
theorem accepts_string {pieces : List (List Char)} (h : ∀ p ∈ pieces, StringPiece p) :
    (⟨.beginValue, open'⟩ : Scanner).accepts ('"' :: (pieces.flatten ++ '"' :: rest)) =
      (⟨.endValue, open'⟩ : Scanner).accepts rest := by
  rw [accepts_cons (show step ⟨.beginValue, open'⟩ '"' = some ⟨.inString, open'⟩ from rfl)]
  exact accepts_pieces h

/-- The name of a field and the colon behind it. -/
theorem accepts_name {pieces : List (List Char)} (h : ∀ p ∈ pieces, StringPiece p)
    {start : ScanState} (hstart : start = .beginString ∨ start = .beginStringOrEmpty) :
    (⟨start, .objectKey :: open'⟩ : Scanner).accepts
        ('"' :: (pieces.flatten ++ '"' :: ':' :: rest)) =
      (⟨.beginValue, .objectValue :: open'⟩ : Scanner).accepts rest := by
  have hquote : step ⟨start, .objectKey :: open'⟩ '"' = some ⟨.inString, .objectKey :: open'⟩ := by
    rcases hstart with rfl | rfl <;> rfl
  rw [accepts_cons hquote, accepts_pieces h]
  exact accepts_cons rfl rest

/-- A blank before a value. -/
theorem accepts_blank : (⟨.beginValue, open'⟩ : Scanner).accepts (' ' :: rest) =
    (⟨.beginValue, open'⟩ : Scanner).accepts rest := accepts_cons rfl rest

/-- The comma between two fields, with a blank. -/
theorem accepts_comma : (⟨.endValue, .objectValue :: open'⟩ : Scanner).accepts (',' :: ' ' :: rest) =
    (⟨.beginString, .objectKey :: open'⟩ : Scanner).accepts rest := by
  rw [accepts_cons (show step ⟨.endValue, .objectValue :: open'⟩ ',' =
    some ⟨.beginString, .objectKey :: open'⟩ from rfl)]
  exact accepts_cons rfl rest

end Scanner

end Pieces

/-! ## Objects -/

/-- A text that is one JSON object. -/
def IsJsonObject (text : List Char) : Prop :=
  jsonValid text = true ∧ (text.dropWhile isJsonSpace).head? = some '\x7b'

/-- Whether a text is a JSON object can be decided. -/
instance IsJsonObject.decidable (text : List Char) : Decidable (IsJsonObject text) :=
  inferInstanceAs (Decidable (_ ∧ _))

namespace Scanner

/-- The scanner behind a text. -/
def scan (s : Scanner) : List Char → Option Scanner
  | [] => some s
  | c :: cs => (s.step c).bind fun t => t.scan cs

/-- Scanning two texts is scanning one after the other. -/
theorem scan_append (s : Scanner) (l m : List Char) :
    s.scan (l ++ m) = (s.scan l).bind fun t => t.scan m := by
  induction l generalizing s with
  | nil => rfl
  | cons c l ih =>
    rw [List.cons_append, scan, scan]
    rcases hstep : s.step c with _ | t
    · rfl
    · exact ih t

/-- A text is accepted when scanning it comes to an end state. -/
theorem accepts_eq_scan (s : Scanner) (text : List Char) :
    s.accepts text = (s.scan text).any atEnd := by
  induction text generalizing s with
  | nil => rfl
  | cons c cs ih =>
    rw [accepts, scan]
    rcases hstep : s.step c with _ | t
    · rfl
    · exact ih t

/-- Something is open. -/
def Inside (s : Scanner) : Prop := s.parseState ≠ [] ∧ s.state ≠ .endTop

/-- The value is complete. -/
def done : Scanner := ⟨.endTop, []⟩

variable {s t : Scanner} {c : Char} {open' : List ParseState}

/-- What a step inside a value comes to. -/
def Stays (r : Option Scanner) : Prop := ∀ t, r = some t → t.Inside ∨ t = done

/-- A step that fails leaves no state. -/
theorem stays_none : Stays none := fun _ h => nomatch h

/-- A step to a state inside the value stays there. -/
theorem stays_some (h : s.Inside) : Stays (some s) := fun _ ht => .inl (Option.some.inj ht ▸ h)

/-- A step by cases stays inside when both of its cases do. -/
theorem stays_ite {p : Prop} [Decidable p] {x y : Option Scanner} (hx : Stays x) (hy : Stays y) :
    Stays (if p then x else y) := by
  split
  · exact hx
  · exact hy

/-- Closing an inner value stays inside. -/
theorem stays_pop (rest : List ParseState) : Stays (some (pop rest)) := by
  rcases rest with _ | ⟨p, rest⟩
  · exact fun t ht => .inr (Option.some.inj ht).symm
  · exact stays_some ⟨nofun, nofun⟩

/-- Opening an inner value stays inside. -/
theorem stays_push (p : ParseState) {next : ScanState} (h : next ≠ .endTop) :
    Stays (push open' p next) :=
  stays_ite (stays_some ⟨nofun, h⟩) stays_none

/-- The end of an inner value stays inside. -/
theorem stays_endValue (h : open' ≠ []) : Stays (stepEndValue c open') := by
  obtain ⟨p, rest, rfl⟩ := List.exists_cons_of_ne_nil h
  unfold stepEndValue
  refine stays_ite (stays_some ⟨h, nofun⟩) ?_
  cases p with
  | objectKey => exact stays_ite (stays_some ⟨nofun, nofun⟩) stays_none
  | objectValue =>
    exact stays_ite (stays_some ⟨nofun, nofun⟩) (stays_ite (stays_pop rest) stays_none)
  | arrayValue =>
    exact stays_ite (stays_some ⟨nofun, nofun⟩) (stays_ite (stays_pop rest) stays_none)

/-- The beginning of a string stays inside. -/
theorem stays_beginString (h : open' ≠ []) : Stays (stepBeginString open' c) :=
  stays_ite (stays_some ⟨h, nofun⟩) (stays_ite (stays_some ⟨h, nofun⟩) stays_none)

/-- The beginning of an inner value stays inside. -/
theorem stays_beginValue (h : open' ≠ []) : Stays (stepBeginValue open' c) := by
  have hstate : ∀ next, next ≠ ScanState.endTop → Stays (some ⟨next, open'⟩) :=
    fun next hnext => stays_some ⟨h, hnext⟩
  unfold stepBeginValue
  exact stays_ite (hstate _ nofun) (stays_ite (stays_push _ nofun) (stays_ite (stays_push _ nofun)
    (stays_ite (hstate _ nofun) (stays_ite (hstate _ nofun) (stays_ite (hstate _ nofun)
      (stays_ite (hstate _ nofun) (stays_ite (hstate _ nofun) (stays_ite (hstate _ nofun)
        (stays_ite (hstate _ nofun) stays_none)))))))))

/-- A digit of an inner number stays inside. -/
theorem stays_digit {next : ScanState} (h : open' ≠ []) (hnext : next ≠ .endTop) :
    Stays (stepDigit open' c next) :=
  stays_ite (stays_some ⟨h, hnext⟩) stays_none

/-- An exponent of an inner number stays inside. -/
theorem stays_exponent (h : open' ≠ []) : Stays (stepExponent open' c) :=
  stays_ite (stays_some ⟨h, nofun⟩) (stays_endValue h)

/-- A leading zero of an inner number stays inside. -/
theorem stays_zero (h : open' ≠ []) : Stays (stepZero open' c) :=
  stays_ite (stays_some ⟨h, nofun⟩) (stays_exponent h)

/-- A step inside a value stays inside or completes the outermost value. -/
theorem Inside.step (h : s.Inside) : Stays (s.step c) := by
  obtain ⟨state, open'⟩ := s
  obtain ⟨hopen, htop⟩ := h
  -- The stack stays as it is, so that only the state matters.
  have hstate : ∀ next, next ≠ ScanState.endTop → Stays (some ⟨next, open'⟩) :=
    fun next hnext => stays_some ⟨hopen, hnext⟩
  unfold Scanner.step
  cases state with
  | beginValueOrEmpty =>
    exact stays_ite (hstate _ nofun) (stays_ite (stays_endValue hopen) (stays_beginValue hopen))
  | beginValue => exact stays_beginValue hopen
  | beginStringOrEmpty =>
    exact stays_ite (hstate _ nofun)
      (stays_ite (stays_endValue (nofun)) (stays_beginString hopen))
  | beginString => exact stays_beginString hopen
  | endValue => exact stays_endValue hopen
  | endTop => exact absurd rfl htop
  | inString =>
    exact stays_ite (hstate _ nofun) (stays_ite (hstate _ nofun) (stays_ite stays_none
      (hstate _ nofun)))
  | inStringEsc =>
    exact stays_ite (hstate _ nofun) (stays_ite (hstate _ nofun) stays_none)
  | inStringEscU left =>
    refine stays_ite (hstate _ ?_) stays_none
    split
    · exact nofun
    · exact nofun
  | neg => exact stays_ite (hstate _ nofun) (stays_ite (hstate _ nofun) stays_none)
  | nonzero => exact stays_ite (hstate _ nofun) (stays_zero hopen)
  | zero => exact stays_zero hopen
  | dot => exact stays_digit hopen nofun
  | fraction => exact stays_ite (hstate _ nofun) (stays_exponent hopen)
  | exponent => exact stays_ite (hstate _ nofun) (stays_digit hopen nofun)
  | exponentSign => exact stays_digit hopen nofun
  | exponentDigits => exact stays_ite (hstate _ nofun) (stays_endValue hopen)
  | word rest =>
    rcases rest with _ | ⟨x, _ | ⟨y, rest⟩⟩
    · exact stays_none
    · exact stays_ite (hstate _ nofun) stays_none
    · exact stays_ite (hstate _ nofun) stays_none

/-- Behind the value only blanks stand. -/
theorem step_done : done.step c = if isJsonSpace c then some done else none := rfl

/-- A text read from inside a value leaves the scanner inside or behind it. -/
theorem scan_inside {text : List Char} (h : s.Inside ∨ s = done) (ht : s.scan text = some t) :
    t.Inside ∨ t = done := by
  induction text generalizing s with
  | nil => exact Option.some.inj ht ▸ h
  | cons c cs ih =>
    obtain ⟨u, hu, hrest⟩ := Option.bind_eq_some_iff.mp ht
    refine ih ?_ hrest
    rcases h with h | rfl
    · exact h.step u hu
    · rw [step_done] at hu
      split at hu
      · exact .inr (Option.some.inj hu).symm
      · cases hu

/-- Inside a value the end of the text is an error. -/
theorem Inside.not_atEnd (h : s.Inside) : s.atEnd = false := by
  obtain ⟨state, open'⟩ := s
  obtain ⟨hopen, htop⟩ := h
  obtain ⟨p, rest, rfl⟩ := List.exists_cons_of_ne_nil hopen
  cases state with
  | endTop => exact absurd rfl htop
  | word letters =>
    rcases letters with _ | ⟨x, _ | ⟨y, letters⟩⟩
    · rfl
    · by_cases hx : ' ' = x
      · subst hx
        rfl
      · simp [atEnd, Scanner.step, hx]
    · by_cases hx : ' ' = x
      · subst hx
        rfl
      · simp [atEnd, Scanner.step, hx]
  | _ => rfl

/-- Blanks in front of a value. -/
theorem scan_blanks {blanks : List Char} (h : ∀ c ∈ blanks, isJsonSpace c = true) :
    (⟨.beginValue, []⟩ : Scanner).scan blanks = some ⟨.beginValue, []⟩ := by
  induction blanks with
  | nil => rfl
  | cons c cs ih =>
    have hstep : step ⟨.beginValue, []⟩ c = some ⟨.beginValue, []⟩ :=
      if_pos (h c List.mem_cons_self)
    rw [scan, hstep]
    exact ih fun x hx => h x (List.mem_cons_of_mem _ hx)

/-- Behind an object the scanner expects blanks only. -/
theorem scan_object {text : List Char} (h : IsJsonObject text) :
    (⟨.beginValue, []⟩ : Scanner).scan text = some done := by
  obtain ⟨hvalid, hbrace⟩ := h
  obtain ⟨rest, hrest⟩ : ∃ rest, text.dropWhile isJsonSpace = '\x7b' :: rest := by
    rcases hdrop : text.dropWhile isJsonSpace with _ | ⟨c, rest⟩
    · rw [hdrop] at hbrace
      cases hbrace
    · rw [hdrop] at hbrace
      exact ⟨rest, by rw [Option.some.inj hbrace]⟩
  have hblanks : ∀ c ∈ text.takeWhile isJsonSpace, isJsonSpace c = true :=
    fun c hc => List.all_eq_true.mp List.all_takeWhile c hc
  -- The brace opens the object, and from there on the scanner is inside it.
  have hopen : (⟨.beginValue, []⟩ : Scanner).scan text =
      (⟨.beginStringOrEmpty, [.objectKey]⟩ : Scanner).scan rest := by
    rw [← List.takeWhile_append_dropWhile (p := isJsonSpace) (l := text), hrest, scan_append,
      scan_blanks hblanks, Option.bind_some]
    rfl
  rw [jsonValid, accepts_eq_scan, hopen] at hvalid
  rw [hopen]
  obtain ⟨t, ht, hend⟩ := (Option.any_eq_true ..).mp hvalid
  have hfirst : (⟨.beginStringOrEmpty, [.objectKey]⟩ : Scanner).Inside := ⟨nofun, nofun⟩
  rcases scan_inside (.inl hfirst) ht with hinside | rfl
  · rw [hinside.not_atEnd] at hend
    cases hend
  · exact ht

end Scanner

/-- An object with more than blanks behind it is not a JSON text. -/
theorem jsonValid_object_append {text rest : List Char} {c : Char} (h : IsJsonObject text)
    (hc : isJsonSpace c = false) : jsonValid (text ++ c :: rest) = false := by
  rw [jsonValid, Scanner.accepts_eq_scan, Scanner.scan_append, Scanner.scan_object h,
    Option.bind_some, Scanner.scan, Scanner.step_done, if_neg (by simp [hc])]
  rfl

end LedgerSync.Lib
