import LedgerSync.Lib.Calendar
import LedgerSync.Lib.Decimal
import Mathlib.Data.List.TakeDrop

/-!
# Column types

The values that the columns and the arguments of the stored procedures hold: `uuid`, `bigint`,
`jsonb`, `bytea`, instants, and the patterns that the procedures test texts with. An instant is a
number of microseconds since the start of year 1; a `Timestamp` argument is a clock reading and
lies in the years that a calendar text can show, while a stored instant such as an expiry may lie
beyond them.
-/

namespace LedgerSync

open Lib

/-! ## Identifiers -/

/-- A `uuid`. -/
structure Uuid where
  /-- The 128 bits as a number, which is also the order of identifiers. -/
  toNat : ℕ
  /-- There are 128 bits. -/
  isLt : toNat < 2 ^ 128
deriving DecidableEq

namespace Uuid

/-- The nil identifier. -/
def nil : Uuid := ⟨0, by decide⟩

/-- The canonical text, `id::text`: groups of 8, 4, 4, 4 and 12 digits. -/
def text (u : Uuid) : String :=
  let d := hexDigits 32 u.toNat
  String.ofList (d.take 8 ++ '-' :: (d.drop 8).take 4 ++ '-' :: (d.drop 12).take 4 ++
    '-' :: (d.drop 16).take 4 ++ '-' :: d.drop 20)

/-- The identifier that a text denotes, `s::uuid`. -/
def ofText? (s : String) : Option Uuid :=
  let d := s.toList.filter (· ≠ '-')
  if d.length = 32 then
    (ofHexDigits? d).bind fun n => if h : n < 2 ^ 128 then some ⟨n, h⟩ else none
  else none

/-- Without its dashes, the text of an identifier is its number in 32 hexadecimal digits. -/
theorem filter_text (u : Uuid) : u.text.toList.filter (· ≠ '-') = hexDigits 32 u.toNat := by
  have hkeep : ∀ l : List Char, (∀ c ∈ l, c ∈ hexDigits 32 u.toNat) →
      l.filter (· ≠ '-') = l := fun l hl =>
    List.filter_eq_self.mpr fun c hc => by simpa using ne_hyphen_of_mem_hexDigits (hl c hc)
  have htake : ∀ i j, ∀ c ∈ ((hexDigits 32 u.toNat).drop i).take j, c ∈ hexDigits 32 u.toNat :=
    fun i j c hc => List.mem_of_mem_drop (List.mem_of_mem_take hc)
  rw [text, String.toList_ofList]
  simp only [List.filter_append, List.filter_cons, ne_eq, not_true_eq_false, decide_false,
    Bool.false_eq_true, if_false]
  rw [hkeep _ fun c hc => List.mem_of_mem_take hc, hkeep _ (htake 8 4), hkeep _ (htake 12 4),
    hkeep _ (htake 16 4), hkeep _ fun c hc => List.mem_of_mem_drop hc]
  -- The groups are consecutive, so together they are all the digits.
  have hjoin : ∀ i j, ((hexDigits 32 u.toNat).drop i).take j ++ (hexDigits 32 u.toNat).drop (i + j)
      = (hexDigits 32 u.toNat).drop i := fun i j => by
    rw [← List.drop_drop, List.take_append_drop]
  simp only [List.append_assoc]
  rw [hjoin 16 4, hjoin 12 4, hjoin 8 4, List.take_append_drop]

/-- Reading the canonical text gives the identifier back. -/
theorem ofText?_text (u : Uuid) : ofText? u.text = some u := by
  have hmod : u.toNat % 16 ^ 32 = u.toNat := Nat.mod_eq_of_lt (by simpa using u.isLt)
  unfold ofText?
  rw [filter_text]
  simp only [length_hexDigits, if_true, ofHexDigits?_hexDigits, hmod, Option.bind_some, u.isLt,
    dif_pos]

/-- Identifiers with the same text are the same. -/
theorem text_inj {u v : Uuid} : u.text = v.text ↔ u = v := by
  constructor
  · intro h
    have hread := congrArg ofText? h
    rwa [ofText?_text, ofText?_text, Option.some.injEq] at hread
  · rintro rfl
    rfl

/-- The text of an identifier has dashes and hexadecimal digits only. -/
theorem mem_text {u : Uuid} {c : Char} (h : c ∈ u.text.toList) :
    c = '-' ∨ ∃ d < 16, c = Nat.digitChar d := by
  by_cases hc : c = '-'
  · exact .inl hc
  · refine .inr (mem_hexDigits (w := 32) (n := u.toNat) ?_)
    rw [← filter_text]
    exact List.mem_filter.mpr ⟨h, by simpa using hc⟩

/-- A character that is no hyphen and no digit is not in a text. -/
theorem not_mem_text (u : Uuid) {c : Char} (h : c ≠ '-' ∧ ∀ d < 16, c ≠ Nat.digitChar d) :
    c ∉ u.text.toList := by
  intro hmem
  rcases mem_text hmem with hc | ⟨d, hd, hc⟩
  · exact h.1 hc
  · exact h.2 d hd hc

/-- The text of an identifier has 36 characters. -/
theorem length_text (u : Uuid) : u.text.toList.length = 36 := by
  simp [text]

/-- The text is of printable characters without quotes. -/
theorem printable_text {u : Uuid} {c : Char} (h : c ∈ u.text.toList) :
    32 < c.toNat ∧ c.toNat < 127 ∧ c ≠ '"' ∧ c ≠ '\\' := by
  rcases mem_text h with rfl | ⟨d, hd, rfl⟩
  · decide
  · interval_cases d <;> decide

end Uuid

/-! ## Integers -/

/-- A `bigint`. -/
structure Bigint where
  /-- The number. -/
  val : ℤ
  /-- It fits in 64 signed bits. -/
  inRange : -2 ^ 63 ≤ val ∧ val < 2 ^ 63
deriving DecidableEq

namespace Bigint

/-- A `bigint` as an integer. -/
instance : Coe Bigint ℤ := ⟨val⟩

/-- A `bigint` is known by its value. -/
@[ext]
theorem ext {a b : Bigint} (h : (a : ℤ) = b) : a = b := by
  cases a
  cases b
  congr

/-- The numbers that a `bigint` can hold. -/
def Fits (z : ℤ) : Prop := -2 ^ 63 ≤ z ∧ z < 2 ^ 63

/-- Whether an integer is in the range of a `bigint` can be decided. -/
instance (z : ℤ) : Decidable (Fits z) := inferInstanceAs (Decidable (_ ∧ _))

/-- The `bigint` of a number that fits. -/
def ofInt? (z : ℤ) : Option Bigint := if h : Fits z then some ⟨z, h⟩ else none

/-- An integer in the range is the value of its `bigint`. -/
theorem ofInt?_eq_some {z : ℤ} {b : Bigint} : ofInt? z = some b ↔ (b : ℤ) = z := by
  unfold ofInt?
  split_ifs with h
  · rw [Option.some.injEq]
    exact ⟨fun hb => hb ▸ rfl, fun hb => ext hb.symm⟩
  · simp only [false_iff]
    rintro rfl
    exact h b.inRange

/-- Zero is in the range. -/
theorem zero_inRange : -2 ^ 63 ≤ (0 : ℤ) ∧ (0 : ℤ) < 2 ^ 63 := by decide

/-- One is in the range. -/
theorem one_inRange : -2 ^ 63 ≤ (1 : ℤ) ∧ (1 : ℤ) < 2 ^ 63 := by decide

/-- Zero, the default of several columns. -/
def zero : Bigint := ⟨0, zero_inRange⟩

/-- One, the version of a new aggregate. -/
def one : Bigint := ⟨1, one_inRange⟩

/-- Zero is not negative. -/
theorem zero_nonneg : 0 ≤ (zero : ℤ) := le_rfl

/-- The decimal text, `n::text`. -/
def text (b : Bigint) : String := decimal b

/-- A `bigint` is known by its text. -/
theorem text_inj {a b : Bigint} (h : a.text = b.text) : a = b := by
  refine ext (Option.some.inj ?_)
  rw [← parseInt64_decimal a.inRange.1 a.inRange.2, ← parseInt64_decimal b.inRange.1 b.inRange.2]
  exact congrArg parseInt64 h

end Bigint

/-- An identifier with a small number, for the concrete cases. -/
def Sample.uuid (n : ℕ) (h : decide (n < 2 ^ 128) = true := by exact Eq.refl true) : Uuid :=
  ⟨n, of_decide_eq_true h⟩

/-! ## Instants and intervals -/

/-- A `timestamptz`: microseconds since the start of year 1. -/
abbrev Instant : Type := ℤ

/-- A clock reading as an instant. -/
def instant (t : Timestamp) : Instant := t.micros

/-- `INTERVAL '1 minute'`. -/
def minute : ℤ := 60000000

/-- `INTERVAL '24 hours'`. -/
def day : ℤ := 86400000000

/-! ## Documents -/

/-- A `jsonb` document; an object holds each key once. -/
inductive Json where
  | null
  | bool (b : Bool)
  | num (n : ℤ)
  | str (s : String)
  | arr (items : List Json)
  | obj (fields : List (String × Json))

namespace Json

/-- A character inside a quoted text. -/
def escape (c : Char) : List Char :=
  if c = '"' then ['\\', '"']
  else if c = '\\' then ['\\', '\\']
  else if c = '\n' then ['\\', 'n']
  else if c = '\r' then ['\\', 'r']
  else if c = '\t' then ['\\', 't']
  else if c.toNat = 8 then ['\\', 'b']
  else if c.toNat = 12 then ['\\', 'f']
  else if c.toNat < 32 then '\\' :: 'u' :: hexDigits 4 c.toNat
  else [c]

/-- A quoted text. -/
def quote (s : String) : List Char := '"' :: s.toList.flatMap escape ++ ['"']

mutual

/-- The text of a document, `doc::text`. -/
def render : Json → List Char
  | null => "null".toList
  | bool b => (if b then "true" else "false").toList
  | num n => (decimal n).toList
  | str s => quote s
  | arr items => '[' :: renderItems items ++ [']']
  | obj fields => '\x7b' :: renderFields fields ++ ['\x7d']

/-- The items of an array, with commas between them. -/
def renderItems : List Json → List Char
  | [] => []
  | [x] => render x
  | x :: y :: rest => render x ++ ',' :: ' ' :: renderItems (y :: rest)

/-- The fields of an object, with commas between them. -/
def renderFields : List (String × Json) → List Char
  | [] => []
  | [(k, v)] => quote k ++ ':' :: ' ' :: render v
  | (k, v) :: f :: rest => quote k ++ ':' :: ' ' :: render v ++ ',' :: ' ' :: renderFields (f :: rest)

end

/-- The value of a field, `doc->key`. -/
def get? : Json → String → Option Json
  | obj fields, k => fields.lookup k
  | _, _ => none

/-- A document as a text, which is what `doc#>>'{}'` gives. -/
def scalarText? : Json → Option String
  | null => none
  | str s => some s
  | doc => some (String.ofList doc.render)

/-- The value of a field as a text, `doc->>key`. -/
def text? (doc : Json) (k : String) : Option String := (doc.get? k).bind scalarText?

/-- Two objects joined, `a || b`: the fields of `b` replace those of `a`. -/
def merge : Json → Json → Json
  | obj a, obj b => obj (a.filter (fun f => b.all (fun g => g.1 ≠ f.1)) ++ b)
  | a, _ => a

end Json

/-! ## Text patterns -/

/-- `btrim(s) = s`: no blank at either end. -/
def Trimmed (s : String) : Prop := s.toList.head? ≠ some ' ' ∧ s.toList.getLast? ≠ some ' '

/-- Whether a text is trimmed can be decided. -/
instance (s : String) : Decidable (Trimmed s) := inferInstanceAs (Decidable (_ ∧ _))

/-! A condition on the characters of a text is decided along the text, not over all characters. -/

section Characters

variable (p : Char → Prop) [DecidablePred p]

/-- A check of all characters of a text, by recursion on the list. -/
instance (priority := high) decidableAllChars (cs : List Char) : Decidable (∀ c ∈ cs, p c) :=
  List.decidableBAll p cs

/-- A search among the characters of a text, by recursion on the list. -/
instance (priority := high) decidableAnyChar (cs : List Char) : Decidable (∃ c ∈ cs, p c) :=
  List.decidableBEx p cs

/-- A check of the character that may be there. -/
instance (priority := high) decidableSomeChar (o : Option Char) :
    Decidable (∀ c, o = some c → p c) :=
  Option.decidableForallMem o

/-- A search for the character that may be there. -/
instance (priority := high) decidableExistsChar (o : Option Char) : Decidable (∃ c ∈ o, p c) :=
  Option.decidableExistsMem o

end Characters

/-- `s ~ '[[:cntrl:]]'`. -/
def HasControl (s : String) : Prop :=
  ∃ c ∈ s.toList, c.toNat < 32 ∨ (127 ≤ c.toNat ∧ c.toNat < 160)

/-- Whether a text has a control character can be decided. -/
instance (s : String) : Decidable (HasControl s) := inferInstanceAs (Decidable (∃ c ∈ _, _))

/-- `s ~ '^[A-Z]{3}$'`. -/
def IsCurrency (s : String) : Prop := s.toList.length = 3 ∧ ∀ c ∈ s.toList, 'A' ≤ c ∧ c ≤ 'Z'

/-- Whether a text is a currency can be decided. -/
instance (s : String) : Decidable (IsCurrency s) := inferInstanceAs (Decidable (_ ∧ _))

/-- `s ~ '^[!-~]{16,255}$'`, the shape of an idempotency key. -/
def IsKey (s : String) : Prop :=
  16 ≤ s.toList.length ∧ s.toList.length ≤ 255 ∧ ∀ c ∈ s.toList, '!' ≤ c ∧ c ≤ '~'

/-- Whether a text is a key can be decided. -/
instance (s : String) : Decidable (IsKey s) := inferInstanceAs (Decidable (_ ∧ _ ∧ _))

/-- An actor argument: not empty, and without blanks at its ends. -/
def IsActor (s : String) : Prop := s ≠ "" ∧ Trimmed s

/-- Whether a text names an actor can be decided. -/
instance (s : String) : Decidable (IsActor s) := inferInstanceAs (Decidable (_ ∧ _))

/-! ## Digests -/

/-- A `bytea`. -/
abbrev Bytes : Type := List UInt8

/-- The digest function of the database's cryptography extension. -/
structure Digest where
  /-- The SHA-256 digest of a text in UTF-8. -/
  sha256 : String → Bytes
  /-- A digest has 32 bytes. -/
  length_sha256 : ∀ s, (sha256 s).length = 32

end LedgerSync
