import LedgerSync.Lib.Decimal

/-!
# Encodings of lists of fields

A list of fields is written as one text: with a separator between the fields, or with the length of
each field before it. The first identifies the list when no field holds the separator
(`intercalate_inj`), and also when one field may, if those after it are of known form
(`append_cons_inj`); the second always does (`frames_inj`). Bytes are written in hexadecimal digits
and read back (`hexDecode?_hexEncode_append`).
-/

namespace LedgerSync.Lib

/-! ## Separators -/

section Separators

variable {α : Type} {x : α}

/-- Fields without the separator are known from what they are joined to. -/
theorem intercalate_inj [DecidableEq α] {l m : List (List α)} (hl : ∀ f ∈ l, x ∉ f)
    (hm : ∀ f ∈ m, x ∉ f) (hlne : l ≠ []) (hmne : m ≠ []) (h : [x].intercalate l = [x].intercalate m) :
    l = m := by
  have hsplit := congrArg (List.splitOn x) h
  rwa [List.splitOn_intercalate x hl hlne, List.splitOn_intercalate x hm hmne] at hsplit

/-- The field after the last separator is known, and so is what stands before. -/
theorem append_cons_inj {l m a b : List α} (ha : x ∉ a) (hb : x ∉ b)
    (h : l ++ x :: a = m ++ x :: b) : l = m ∧ a = b := by
  rcases List.append_eq_append_iff.mp h with ⟨c, rfl, hc⟩ | ⟨c, rfl, hc⟩
  · rcases c with _ | ⟨y, c⟩
    · exact ⟨(List.append_nil l).symm, (List.cons.inj hc).2⟩
    · have hmem : x ∈ a := by
        rw [(List.cons.inj hc).2]
        simp
      exact absurd hmem ha
  · rcases c with _ | ⟨y, c⟩
    · exact ⟨List.append_nil m, (List.cons.inj hc).2.symm⟩
    · have hmem : x ∈ b := by
        rw [(List.cons.inj hc).2]
        simp
      exact absurd hmem hb

/-- The field before the first separator is known, and so is what stands behind. -/
theorem cons_append_inj {l m a b : List α} (hl : x ∉ l) (hm : x ∉ m)
    (h : l ++ x :: a = m ++ x :: b) : l = m ∧ a = b := by
  have hreverse := congrArg List.reverse h
  simp only [List.reverse_append, List.reverse_cons, List.append_assoc, List.singleton_append]
    at hreverse
  obtain ⟨hbehind, hfront⟩ := append_cons_inj (by simpa using hl) (by simpa using hm) hreverse
  exact ⟨List.reverse_inj.mp hfront, List.reverse_inj.mp hbehind⟩

end Separators

/-! ## Lengths -/

/-- The lowest bytes of a number, the highest of them first. -/
def bigEndian : ℕ → ℕ → List UInt8
  | 0, _ => []
  | w + 1, n => bigEndian w (n / 256) ++ [UInt8.ofNat n]

/-- A number of `w` octets has `w` octets. -/
@[simp]
theorem length_bigEndian (w n : ℕ) : (bigEndian w n).length = w := by
  induction w generalizing n with
  | zero => rfl
  | succ w ih => simp [bigEndian, ih]

/-- A number that fits is known from its bytes. -/
theorem bigEndian_inj {w n m : ℕ} (hn : n < 256 ^ w) (hm : m < 256 ^ w)
    (h : bigEndian w n = bigEndian w m) : n = m := by
  induction w generalizing n m with
  | zero => omega
  | succ w ih =>
    obtain ⟨hhigh, hlow⟩ := List.append_inj' h rfl
    have hbyte : n % 256 = m % 256 := by
      have hval := congrArg UInt8.toNat (List.cons.inj hlow).1
      rwa [UInt8.toNat_ofNat', UInt8.toNat_ofNat'] at hval
    have hdiv : n / 256 = m / 256 :=
      ih (Nat.div_lt_of_lt_mul (by rwa [mul_comm, ← pow_succ]))
        (Nat.div_lt_of_lt_mul (by rwa [mul_comm, ← pow_succ])) hhigh
    omega

/-- A field with its length before it. -/
def frame (w : ℕ) (field : List UInt8) : List UInt8 := bigEndian w field.length ++ field

/-- Fields whose lengths fit are known from their frames. -/
theorem frames_inj {w : ℕ} (hw : 0 < w) {l m : List (List UInt8)} (hl : ∀ f ∈ l, f.length < 256 ^ w)
    (hm : ∀ f ∈ m, f.length < 256 ^ w) (h : l.flatMap (frame w) = m.flatMap (frame w)) : l = m := by
  -- A frame is never empty, since it begins with its length.
  have hpos : ∀ (f : List UInt8) (rest : List (List UInt8)), (f :: rest).flatMap (frame w) ≠ [] := by
    intro f rest hnil
    have hlength := congrArg List.length hnil
    rw [List.flatMap_cons, frame, List.length_append, List.length_append, length_bigEndian] at hlength
    simp at hlength
    omega
  induction l generalizing m with
  | nil =>
    rcases m with _ | ⟨f, m⟩
    · rfl
    · exact absurd h.symm (hpos f m)
  | cons f l ih =>
    rcases m with _ | ⟨g, m⟩
    · exact absurd h (hpos f l)
    · simp only [List.flatMap_cons, frame, List.append_assoc] at h
      -- The length comes first and tells where the field ends.
      obtain ⟨hlength, hrest⟩ := List.append_inj h (by simp)
      have hsame := bigEndian_inj (hl f List.mem_cons_self) (hm g List.mem_cons_self) hlength
      obtain ⟨hfield, htail⟩ := List.append_inj hrest hsame
      rw [hfield, ih (fun x hx => hl x (List.mem_cons_of_mem f hx))
        (fun x hx => hm x (List.mem_cons_of_mem g hx)) htail]

/-! ## Bytes -/

/-- The bytes of a text in UTF-8. -/
def utf8 (s : String) : List UInt8 := s.toList.flatMap String.utf8EncodeChar

/-- A text is known by its octets. -/
theorem utf8_inj {s t : String} : utf8 s = utf8 t ↔ s = t := by
  constructor
  · intro h
    have hbytes : s.toList.utf8Encode = t.toList.utf8Encode := congrArg List.toByteArray h
    rw [String.utf8Encode_toList, String.utf8Encode_toList] at hbytes
    exact String.toByteArray_inj.mp hbytes
  · rintro rfl
    rfl

/-- The octets of joined texts are joined. -/
theorem utf8_append (s t : String) : utf8 (s ++ t) = utf8 s ++ utf8 t := by
  simp [utf8]

/-- A byte of ASCII belongs to the character of its number only. -/
theorem toNat_of_mem_utf8EncodeChar {c : Char} {b : UInt8} (h : b ∈ String.utf8EncodeChar c)
    (hb : b.toNat < 128) : c.toNat = b.toNat := by
  have hval : c.val.toNat = c.toNat := rfl
  -- The bytes of longer characters are at least 128.
  have hlong : ∀ {m k : ℕ}, 128 ≤ k → m + k < 256 → b = UInt8.ofNat (m + k) →
      c.toNat = b.toNat := by
    rintro m k hk hlt rfl
    rw [UInt8.toNat_ofNat'] at hb
    omega
  unfold String.utf8EncodeChar at h
  simp only [hval] at h
  split_ifs at h with h1 h2 h3
  · rw [List.mem_singleton.mp h, UInt8.toNat_ofNat']
    omega
  · simp only [List.mem_cons, List.not_mem_nil, or_false] at h
    rcases h with h | h
    · exact hlong (by decide) (by omega) h
    · exact hlong (by decide) (by omega) h
  · simp only [List.mem_cons, List.not_mem_nil, or_false] at h
    rcases h with h | h | h
    · exact hlong (by decide) (by omega) h
    · exact hlong (by decide) (by omega) h
    · exact hlong (by decide) (by omega) h
  · simp only [List.mem_cons, List.not_mem_nil, or_false] at h
    rcases h with h | h | h | h
    · exact hlong (by decide) (by omega) h
    · exact hlong (by decide) (by omega) h
    · exact hlong (by decide) (by omega) h
    · exact hlong (by decide) (by omega) h

/-- Texts joined with a separator are joined as bytes. -/
theorem utf8_intercalate {sep : String} {b : UInt8} (hsep : utf8 sep = [b]) (parts : List String) :
    utf8 (sep.intercalate parts) = [b].intercalate (parts.map utf8) := by
  induction parts with
  | nil => rfl
  | cons s parts ih =>
    rcases parts with _ | ⟨t, parts⟩
    · simp [utf8]
    · rw [String.intercalate_cons_of_ne_nil (by simp), utf8_append, utf8_append, ih, hsep]
      simp [List.intercalate_cons_cons]

/-- `encode(b,'hex')`. -/
def hexEncode (bs : List UInt8) : List Char := bs.flatMap fun b => hexDigits 2 b.toNat

/-- `decode(s,'hex')`; there is no value where the text is not made of pairs of digits. -/
def hexDecode? : List Char → Option (List UInt8)
  | [] => some []
  | [_] => none
  | c :: d :: rest => do
    let n ← ofHexDigits? [c, d]
    let bs ← hexDecode? rest
    pure (UInt8.ofNat n :: bs)

/-- The octets of a hexadecimal text come before those of the rest. -/
theorem hexDecode?_hexEncode_append (bs : List UInt8) {cs : List Char} {tail : List UInt8}
    (h : hexDecode? cs = some tail) : hexDecode? (hexEncode bs ++ cs) = some (bs ++ tail) := by
  induction bs with
  | nil => exact h
  | cons b bs ih =>
    obtain ⟨c, d, hcd⟩ : ∃ c d, hexDigits 2 b.toNat = [c, d] := ⟨_, _, rfl⟩
    have hread : ofHexDigits? [c, d] = some b.toNat := by
      rw [← hcd, ofHexDigits?_hexDigits, Nat.mod_eq_of_lt (by simpa using b.toNat_lt)]
    rw [hexEncode, List.flatMap_cons, hcd]
    show hexDecode? (c :: d :: (hexEncode bs ++ cs)) = some (b :: (bs ++ tail))
    rw [hexDecode?, hread, ih]
    simp

/-- Bytes that are written in hexadecimal digits and joined with those of a separator are read as
the bytes joined with the separator. -/
theorem hexDecode?_intercalate (b : UInt8) (parts : List (List UInt8)) :
    hexDecode? ((hexEncode [b]).intercalate (parts.map hexEncode)) =
      some ([b].intercalate parts) := by
  induction parts with
  | nil => rfl
  | cons p parts ih =>
    rcases parts with _ | ⟨q, parts⟩
    · have hread := hexDecode?_hexEncode_append p (show hexDecode? [] = some [] from rfl)
      simpa [List.intercalate_singleton] using hread
    · rw [List.map_cons, List.map_cons, List.intercalate_cons_cons, ← List.map_cons,
        List.intercalate_cons_cons, List.append_assoc, List.append_assoc]
      exact hexDecode?_hexEncode_append p (hexDecode?_hexEncode_append [b] ih)

end LedgerSync.Lib
