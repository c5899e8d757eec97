import Mathlib.Data.Nat.Digits.Defs
import Mathlib.Tactic.IntervalCases
import Mathlib.Tactic.Ring
import Mathlib.Tactic.Linarith

/-!
# Integers as decimal and hexadecimal text

`decimal` is the canonical decimal text of an integer: no leading zero, no plus sign. `parseInt64`
reads such a text back within 64 signed bits. Between canonical texts of natural numbers the
numeric order is the order by length and then by characters (`shortlex_toDigits`), which is how
a script without 64-bit integers can compare them.

`hexDigits` is the text of a number in a fixed number of hexadecimal digits.
-/

namespace LedgerSync.Lib

/-! ## Decimal text -/

/-- The canonical decimal text of an integer. -/
def decimal : ℤ → String
  | .ofNat n => String.ofList (Nat.toDigits 10 n)
  | .negSucc n => String.ofList ('-' :: Nat.toDigits 10 (n + 1))

/-- The value of a nonempty list of decimal digits. -/
def parseDigits (ds : List Char) : Option ℕ :=
  if ds ≠ [] ∧ ds.all Char.isDigit = true then some (Nat.ofDigitChars 10 ds 0) else none

/-- The signed 64-bit integer that a decimal text denotes, with an optional sign. -/
def parseInt64 (s : String) : Option ℤ :=
  match s.toList with
  | '-' :: ds => (parseDigits ds).bind fun n => if n ≤ 2^63 then some (-(n : ℤ)) else none
  | '+' :: ds => (parseDigits ds).bind fun n => if n < 2^63 then some (n : ℤ) else none
  | ds => (parseDigits ds).bind fun n => if n < 2^63 then some (n : ℤ) else none

/-- The integer that a decimal text denotes, of any size, with an optional sign. -/
def parseInteger (s : String) : Option ℤ :=
  match s.toList with
  | '-' :: ds => (parseDigits ds).map fun n : ℕ => -(n : ℤ)
  | '+' :: ds => (parseDigits ds).map fun n : ℕ => (n : ℤ)
  | ds => (parseDigits ds).map fun n : ℕ => (n : ℤ)

/-- Decimal digits parse to their number. -/
theorem parseDigits_toDigits (n : ℕ) : parseDigits (Nat.toDigits 10 n) = some n := by
  unfold parseDigits
  rw [if_pos, Nat.ofDigitChars_ten_toDigits]
  refine ⟨Nat.toDigits_ne_nil, ?_⟩
  rw [List.all_eq_true]
  intro c hc
  exact Nat.isDigit_of_mem_toDigits (by decide) (by decide) hc

/-- The first digit of a decimal text is neither sign. -/
theorem toDigits_head (n : ℕ) :
    ∃ c cs, Nat.toDigits 10 n = c :: cs ∧ c ≠ '-' ∧ c ≠ '+' := by
  rcases h : Nat.toDigits 10 n with _ | ⟨c, cs⟩
  · exact absurd h Nat.toDigits_ne_nil
  · have hc : c.isDigit = true :=
      Nat.isDigit_of_mem_toDigits (b := 10) (n := n) (by decide) (by decide) (by rw [h]; simp)
    refine ⟨c, cs, rfl, ?_, ?_⟩
    · rintro rfl
      exact absurd hc (by decide)
    · rintro rfl
      exact absurd hc (by decide)

/-- Reading the decimal text of a 64-bit integer gives the integer. -/
theorem parseInt64_decimal {z : ℤ} (hlo : -2^63 ≤ z) (hhi : z < 2^63) :
    parseInt64 (decimal z) = some z := by
  -- The sign is checked first; no digit is taken for one.
  rcases z with n | n
  · obtain ⟨c, cs, hcs, hm, hp⟩ := toDigits_head n
    have hn : n < 2^63 := by
      rw [Int.ofNat_eq_natCast] at hhi
      exact_mod_cast hhi
    have hparse := parseDigits_toDigits n
    simp only [decimal, parseInt64, String.toList_ofList]
    rw [hcs] at hparse ⊢
    split
    · rename_i heq
      exact absurd (List.cons.inj heq).1 hm
    · rename_i heq
      exact absurd (List.cons.inj heq).1 hp
    · rw [hparse, Option.bind_some, if_pos hn]
      rfl
  · have hn : n + 1 ≤ 2^63 := by
      rw [Int.negSucc_eq] at hlo
      have : (n : ℤ) + 1 ≤ 2^63 := by linarith
      exact_mod_cast this
    simp only [decimal, parseInt64, String.toList_ofList]
    rw [parseDigits_toDigits, Option.bind_some, if_pos hn, Int.negSucc_eq]
    push_cast
    rfl

/-- Reading the decimal text of an integer of any size gives the integer. -/
theorem parseInteger_decimal (z : ℤ) : parseInteger (decimal z) = some z := by
  rcases z with n | n
  · obtain ⟨c, cs, hcs, hm, hp⟩ := toDigits_head n
    have hparse := parseDigits_toDigits n
    simp only [decimal, parseInteger, String.toList_ofList]
    rw [hcs] at hparse ⊢
    split
    · rename_i heq
      exact absurd (List.cons.inj heq).1 hm
    · rename_i heq
      exact absurd (List.cons.inj heq).1 hp
    · rw [hparse]
      rfl
  · simp only [decimal, parseInteger, String.toList_ofList]
    rw [parseDigits_toDigits, Option.map_some, Int.negSucc_eq]
    push_cast
    rfl

/-! ## The order of decimal texts -/

/-- Digits that follow a prefix add less than the weight of the prefix. -/
theorem ofDigitChars_lt {l : List Char} (h : ∀ c ∈ l, c.isDigit = true) :
    Nat.ofDigitChars 10 l 0 < 10 ^ l.length := by
  induction l with
  | nil => simp
  | cons c l ih =>
    have hc : c.toNat - '0'.toNat ≤ 9 := by
      have := h c (by simp)
      simp only [Char.isDigit, Bool.and_eq_true, decide_eq_true_eq] at this
      have h9 : c.toNat ≤ 57 := this.2
      change c.toNat - 48 ≤ 9
      omega
    have hl := ih fun x hx => h x (by simp [hx])
    rw [Nat.ofDigitChars_cons, Nat.ofDigitChars_eq_ofDigitChars_zero, List.length_cons, pow_succ,
      mul_zero, zero_add]
    calc 10 ^ l.length * (c.toNat - '0'.toNat) + Nat.ofDigitChars 10 l 0
        < 10 ^ l.length * (c.toNat - '0'.toNat) + 10 ^ l.length := Nat.add_lt_add_left hl _
      _ = 10 ^ l.length * (c.toNat - '0'.toNat + 1) := by ring
      _ ≤ 10 ^ l.length * 10 := Nat.mul_le_mul_left _ (by omega)

/-- A digit is its value above the zero digit. -/
theorem digit_toNat {c : Char} (h : c.isDigit = true) : '0'.toNat ≤ c.toNat := by
  simp only [Char.isDigit, Bool.and_eq_true, decide_eq_true_eq] at h
  exact h.1

/-- A leading part of larger value outweighs whatever follows below its weight. -/
theorem lead_lt {w x a b : ℕ} (y : ℕ) (hx : x < w) (h : a < b) : w * a + x < w * b + y :=
  calc w * a + x < w * a + w := Nat.add_lt_add_left hx _
    _ = w * (a + 1) := by ring
    _ ≤ w * b := Nat.mul_le_mul_left _ h
    _ ≤ w * b + y := Nat.le_add_right _ _

/-- With remainders below the weight, leading parts decide unless they are equal. -/
theorem lead_lt_iff {w x y a b : ℕ} (hx : x < w) (hy : y < w) :
    w * a + x < w * b + y ↔ a < b ∨ a = b ∧ x < y := by
  rcases lt_trichotomy a b with hab | rfl | hba
  · exact ⟨fun _ => .inl hab, fun _ => lead_lt y hx hab⟩
  · simp
  · have := lead_lt x hy hba
    constructor
    · omega
    · omega

/-- Digit texts of one length are ordered as their values. -/
theorem digits_lt_iff {l m : List Char} (hlen : l.length = m.length)
    (hl : ∀ c ∈ l, c.isDigit = true) (hm : ∀ c ∈ m, c.isDigit = true) :
    l < m ↔ Nat.ofDigitChars 10 l 0 < Nat.ofDigitChars 10 m 0 := by
  induction l generalizing m with
  | nil =>
    rw [List.length_nil, eq_comm, List.length_eq_zero_iff] at hlen
    subst hlen
    simp
  | cons a l ih =>
    obtain ⟨b, m, rfl⟩ := List.exists_cons_of_length_eq_add_one
      (show m.length = l.length + 1 by rw [← hlen, List.length_cons])
    have hlen' : l.length = m.length := by simpa using hlen
    have ih' := ih hlen' (fun c hc => hl c (by simp [hc])) (fun c hc => hm c (by simp [hc]))
    have hla := ofDigitChars_lt (fun c hc => hl c (List.mem_cons_of_mem _ hc))
    have hmb := ofDigitChars_lt (fun c hc => hm c (List.mem_cons_of_mem _ hc))
    have ha := digit_toNat (hl a (by simp))
    have hb := digit_toNat (hm b (by simp))
    -- A text's value is its first digit over the weight of the rest, plus the rest.
    have hval : ∀ (c : Char) (t : List Char), Nat.ofDigitChars 10 (c :: t) 0 =
        10 ^ t.length * (c.toNat - '0'.toNat) + Nat.ofDigitChars 10 t 0 := by
      intro c t
      rw [Nat.ofDigitChars_cons, Nat.ofDigitChars_eq_ofDigitChars_zero, Nat.mul_zero, Nat.zero_add]
    have hlt : a < b ↔ a.toNat - '0'.toNat < b.toNat - '0'.toNat := by
      change a.toNat < b.toNat ↔ _
      omega
    have heq : a = b ↔ a.toNat - '0'.toNat = b.toNat - '0'.toNat := by
      rw [← Char.toNat_inj]
      omega
    rw [List.cons_lt_cons_iff, ih', hval, hval, ← hlen', lead_lt_iff hla (hlen' ▸ hmb), hlt, heq]

/-- Digit texts of one length and one value are equal. -/
theorem digits_inj {l m : List Char} (hlen : l.length = m.length)
    (hl : ∀ c ∈ l, c.isDigit = true) (hm : ∀ c ∈ m, c.isDigit = true)
    (hval : Nat.ofDigitChars 10 l 0 = Nat.ofDigitChars 10 m 0) : l = m := by
  refine List.le_antisymm (fun h => ?_) (fun h => ?_)
  · exact hval.not_gt ((digits_lt_iff hlen.symm hm hl).mp h)
  · exact hval.not_lt ((digits_lt_iff hlen hl hm).mp h)

/-- A longer decimal text denotes a larger number. -/
theorem lt_of_length_toDigits_lt {n m : ℕ}
    (h : (Nat.toDigits 10 n).length < (Nat.toDigits 10 m).length) : n < m := by
  by_contra hle
  have hpos : 0 < (Nat.toDigits 10 n).length := Nat.length_toDigits_pos
  have hn := (Nat.length_toDigits_le_iff (b := 10) (n := n) (by decide) hpos).mp le_rfl
  have hm := (Nat.length_toDigits_le_iff (b := 10) (n := m) (by decide) hpos).mpr (by omega)
  omega

/-- Between decimal texts, shorter first and then by characters is the numeric order. -/
theorem shortlex_toDigits (n m : ℕ) :
    n < m ↔ (Nat.toDigits 10 n).length < (Nat.toDigits 10 m).length ∨
      (Nat.toDigits 10 n).length = (Nat.toDigits 10 m).length ∧
        Nat.toDigits 10 n < Nat.toDigits 10 m := by
  have hdigits : ∀ k, ∀ c ∈ Nat.toDigits 10 k, c.isDigit = true := fun k c hc =>
    Nat.isDigit_of_mem_toDigits (by decide) (by decide) hc
  rcases lt_trichotomy (Nat.toDigits 10 n).length (Nat.toDigits 10 m).length with h | h | h
  · exact ⟨fun _ => .inl h, fun _ => lt_of_length_toDigits_lt h⟩
  · rw [digits_lt_iff h (hdigits n) (hdigits m), Nat.ofDigitChars_ten_toDigits,
      Nat.ofDigitChars_ten_toDigits]
    exact ⟨fun hnm => .inr ⟨h, hnm⟩, fun hor => hor.elim (fun hl => absurd hl (by omega)) (·.2)⟩
  · have hmn := lt_of_length_toDigits_lt h
    constructor
    · intro hnm
      omega
    · rintro (hl | ⟨hl, -⟩) <;> omega

/-- Digits without a leading zero are the decimal text of their value. -/
theorem toDigits_ofDigitChars {c : Char} {cs : List Char}
    (hd : ∀ x ∈ c :: cs, x.isDigit = true) (hc : c ≠ '0') :
    Nat.toDigits 10 (Nat.ofDigitChars 10 (c :: cs) 0) = c :: cs := by
  have hdigits : ∀ x ∈ Nat.toDigits 10 (Nat.ofDigitChars 10 (c :: cs) 0), x.isDigit = true :=
    fun x hx => Nat.isDigit_of_mem_toDigits (by decide) (by decide) hx
  -- The value has as many digits as the text.
  have hlt := ofDigitChars_lt hd
  have hge : 10 ^ cs.length ≤ Nat.ofDigitChars 10 (c :: cs) 0 := by
    have h0 := digit_toNat (hd c (by simp))
    have hne : c.toNat ≠ '0'.toNat := fun h => hc (Char.toNat_inj.mp h)
    rw [Nat.ofDigitChars_cons, Nat.ofDigitChars_eq_ofDigitChars_zero, mul_zero, zero_add]
    calc 10 ^ cs.length = 10 ^ cs.length * 1 := (mul_one _).symm
      _ ≤ 10 ^ cs.length * (c.toNat - '0'.toNat) := Nat.mul_le_mul_left _ (by omega)
      _ ≤ _ := Nat.le_add_right _ _
  have hlen : (Nat.toDigits 10 (Nat.ofDigitChars 10 (c :: cs) 0)).length = (c :: cs).length := by
    have hle := (Nat.length_toDigits_le_iff (b := 10) (by decide)
      (by simp : 0 < (c :: cs).length)).mpr hlt
    rcases Nat.lt_or_ge cs.length 1 with hnil | hpos
    · have := Nat.length_toDigits_pos (b := 10) (n := Nat.ofDigitChars 10 (c :: cs) 0)
      rw [List.length_cons] at hle ⊢
      omega
    · have hnot : ¬(Nat.toDigits 10 (Nat.ofDigitChars 10 (c :: cs) 0)).length ≤ cs.length := by
        rw [Nat.length_toDigits_le_iff (b := 10) (by decide) hpos]
        omega
      rw [List.length_cons] at hle ⊢
      omega
  exact digits_inj hlen hdigits hd Nat.ofDigitChars_ten_toDigits

/-! ## Hexadecimal text of fixed width -/

/-- The low `w` hexadecimal digits of `n`, most significant first. -/
def hexDigits : ℕ → ℕ → List Char
  | 0, _ => []
  | w + 1, n => hexDigits w (n / 16) ++ [Nat.digitChar (n % 16)]

/-- A number in hexadecimal digits has their count. -/
@[simp]
theorem length_hexDigits (w n : ℕ) : (hexDigits w n).length = w := by
  induction w generalizing n with
  | zero => rfl
  | succ w ih => simp [hexDigits, ih]

/-- The value of a hexadecimal digit of either case. -/
def hexValue? (c : Char) : Option ℕ :=
  if c.isDigit then some (c.toNat - '0'.toNat)
  else if 'a' ≤ c ∧ c ≤ 'f' then some (c.toNat - 'a'.toNat + 10)
  else if 'A' ≤ c ∧ c ≤ 'F' then some (c.toNat - 'A'.toNat + 10)
  else none

/-- The number that a text of hexadecimal digits denotes. -/
def ofHexDigits? : List Char → Option ℕ
  | [] => some 0
  | c :: cs => do
    let d ← hexValue? c
    let r ← ofHexDigits? cs
    pure (d * 16 ^ cs.length + r)

/-- A hexadecimal digit has its value. -/
theorem hexValue?_digitChar {d : ℕ} (h : d < 16) : hexValue? (Nat.digitChar d) = some d := by
  interval_cases d <;> rfl

/-- A further hexadecimal digit is the last of the number. -/
theorem ofHexDigits?_append_digit {cs : List Char} {r d : ℕ} (hcs : ofHexDigits? cs = some r)
    (hd : d < 16) : ofHexDigits? (cs ++ [Nat.digitChar d]) = some (16 * r + d) := by
  induction cs generalizing r with
  | nil =>
    cases hcs
    simp [ofHexDigits?, hexValue?_digitChar hd]
  | cons c cs ih =>
    simp only [ofHexDigits?, Option.bind_eq_bind, Option.bind_eq_some_iff, Option.pure_def,
      Option.some.injEq] at hcs
    obtain ⟨x, hx, r', hr', rfl⟩ := hcs
    simp [ofHexDigits?, hx, ih hr']
    ring

/-- Reading the digits of a number gives its low digits back. -/
theorem ofHexDigits?_hexDigits (w n : ℕ) : ofHexDigits? (hexDigits w n) = some (n % 16 ^ w) := by
  induction w generalizing n with
  | zero => simp [hexDigits, ofHexDigits?, Nat.mod_one]
  | succ w ih =>
    rw [hexDigits, ofHexDigits?_append_digit (ih _) (Nat.mod_lt _ (by decide)), pow_succ',
      Nat.mod_mul, Nat.add_comm]

/-- A hexadecimal digit. -/
theorem mem_hexDigits {w n : ℕ} {c : Char} (h : c ∈ hexDigits w n) :
    ∃ d < 16, c = Nat.digitChar d := by
  induction w generalizing n with
  | zero => simp [hexDigits] at h
  | succ w ih =>
    rcases List.mem_append.mp h with h | h
    · exact ih h
    · exact ⟨n % 16, Nat.mod_lt _ (by decide), List.mem_singleton.mp h⟩

/-- A hexadecimal digit is not the hyphen. -/
theorem ne_hyphen_of_mem_hexDigits {w n : ℕ} {c : Char} (h : c ∈ hexDigits w n) : c ≠ '-' := by
  obtain ⟨d, hd, rfl⟩ := mem_hexDigits h
  interval_cases d <;> decide

/-- Texts that begin with groups of one length are in the order of the groups first. -/
theorem append_lt_append_iff {l₁ l₂ r₁ r₂ : List Char} (h : l₁.length = l₂.length) :
    l₁ ++ r₁ < l₂ ++ r₂ ↔ l₁ < l₂ ∨ l₁ = l₂ ∧ r₁ < r₂ := by
  induction l₁ generalizing l₂ with
  | nil =>
    obtain rfl := List.eq_nil_of_length_eq_zero h.symm
    simp
  | cons x l₁ ih =>
    cases l₂ with
    | nil => cases h
    | cons y l₂ =>
      simp only [List.cons_append, List.cons_lt_cons_iff, List.cons.injEq,
        ih (Nat.succ_injective h)]
      tauto

/-! ## Plain texts -/

/-- A text of ASCII characters has one byte for each. -/
theorem utf8ByteSize_of_ascii {s : String} (h : ∀ c ∈ s.toList, c.toNat < 128) :
    s.utf8ByteSize = s.toList.length := by
  obtain ⟨l, rfl⟩ : ∃ l, s = String.ofList l := ⟨s.toList, String.ofList_toList.symm⟩
  rw [String.toList_ofList] at h ⊢
  induction l with
  | nil => rfl
  | cons c l ih =>
    have hc : (String.singleton c).utf8ByteSize = 1 := by
      rw [String.utf8ByteSize_singleton, Char.utf8Size, if_pos]
      exact Nat.le_of_lt_succ (h c List.mem_cons_self)
    rw [← List.singleton_append, String.ofList_append, String.utf8ByteSize_append,
      ih fun x hx => h x (List.mem_cons_of_mem _ hx), List.length_append]
    exact congrArg (· + l.length) hc

/-- The sizes of joined texts add up. -/
theorem ofList_append_size (l r : List Char) :
    (String.ofList (l ++ r)).utf8ByteSize =
      (String.ofList l).utf8ByteSize + (String.ofList r).utf8ByteSize := by
  rw [String.ofList_append, String.utf8ByteSize_append]

/-- An ASCII character takes one octet. -/
theorem ofList_cons_size {c : Char} (hc : c.toNat < 128) (l : List Char) :
    (String.ofList (c :: l)).utf8ByteSize = 1 + (String.ofList l).utf8ByteSize := by
  rw [← List.singleton_append, ofList_append_size, utf8ByteSize_of_ascii]
  · simp
  · intro x hx
    rw [String.toList_ofList, List.mem_singleton] at hx
    rw [hx]
    exact hc

end LedgerSync.Lib
