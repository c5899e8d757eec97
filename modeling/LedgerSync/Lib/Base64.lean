import LedgerSync.Lib.Framing

/-!
# Base64 of texts

`base64.RawURLEncoding`: three bytes are four characters of six bits, without padding. Decoding
skips line breaks and does not look at the bits that are left over.
-/

namespace LedgerSync.Lib

/-! ## Six bits -/

/-- The character of a six-bit value. -/
def base64UrlChar (v : ℕ) : Char :=
  if v < 26 then Char.ofNat ('A'.toNat + v)
  else if v < 52 then Char.ofNat ('a'.toNat + (v - 26))
  else if v < 62 then Char.ofNat ('0'.toNat + (v - 52))
  else if v = 62 then '-'
  else '_'

/-- The value of a character. -/
def base64UrlValue? (c : Char) : Option ℕ :=
  if c.isUpper then some (c.toNat - 'A'.toNat)
  else if c.isLower then some (c.toNat - 'a'.toNat + 26)
  else if c.isDigit then some (c.toNat - '0'.toNat + 52)
  else if c = '-' then some 62
  else if c = '_' then some 63
  else none

/-- A character of the alphabet has its value, and is no line break. -/
theorem base64UrlValue?_char {v : ℕ} (h : v < 64) :
    base64UrlValue? (base64UrlChar v) = some v ∧ base64UrlChar v ≠ '\r' ∧
      base64UrlChar v ≠ '\n' := by
  have hall : ∀ w : Fin 64, base64UrlValue? (base64UrlChar w) = some w.val ∧
      base64UrlChar w ≠ '\r' ∧ base64UrlChar w ≠ '\n' := by
    decide
  exact hall ⟨v, h⟩

/-- The six-bit values of bytes. -/
def sextets : List ℕ → List ℕ
  | a :: b :: c :: rest =>
    a / 4 :: (a % 4 * 16 + b / 16) :: (b % 16 * 4 + c / 64) :: c % 64 :: sextets rest
  | [a, b] => [a / 4, a % 4 * 16 + b / 16, b % 16 * 4]
  | [a] => [a / 4, a % 4 * 16]
  | [] => []

/-- The bytes of six-bit values; a single value does not make a byte. -/
def octets? : List ℕ → Option (List ℕ)
  | p :: q :: r :: t :: rest =>
    (octets? rest).map fun bytes =>
      (p * 4 + q / 16) :: (q % 16 * 16 + r / 4) :: (r % 4 * 64 + t) :: bytes
  | [p, q, r] => some [p * 4 + q / 16, q % 16 * 16 + r / 4]
  | [p, q] => some [p * 4 + q / 16]
  | [_] => none
  | [] => some []

/-- The sextets of octets are below 64. -/
theorem sextets_lt {bytes : List ℕ} (h : ∀ b ∈ bytes, b < 256) : ∀ v ∈ sextets bytes, v < 64 := by
  induction bytes using sextets.induct with
  | case1 a b c rest ih =>
    simp only [List.mem_cons, forall_eq_or_imp] at h
    obtain ⟨ha, hb, hc, hrest⟩ := h
    simp only [sextets, List.mem_cons, forall_eq_or_imp]
    exact ⟨by omega, by omega, by omega, by omega, ih hrest⟩
  | case2 a b =>
    simp only [List.mem_cons, List.not_mem_nil, or_false, forall_eq_or_imp, forall_eq] at h
    simp only [sextets, List.mem_cons, List.not_mem_nil, or_false, forall_eq_or_imp, forall_eq]
    omega
  | case3 a =>
    simp only [List.mem_singleton, forall_eq] at h
    simp only [sextets, List.mem_cons, List.not_mem_nil, or_false, forall_eq_or_imp, forall_eq]
    omega
  | case4 => exact fun v hv => absurd hv List.not_mem_nil

/-- The bytes are read back. -/
theorem octets?_sextets {bytes : List ℕ} (h : ∀ b ∈ bytes, b < 256) :
    octets? (sextets bytes) = some bytes := by
  induction bytes using sextets.induct with
  | case1 a b c rest ih =>
    simp only [List.mem_cons, forall_eq_or_imp] at h
    obtain ⟨ha, hb, hc, hrest⟩ := h
    simp only [sextets, octets?, ih hrest, Option.map_some, Option.some.injEq, List.cons.injEq,
      and_true]
    omega
  | case2 a b =>
    simp only [List.mem_cons, List.not_mem_nil, or_false, forall_eq_or_imp, forall_eq] at h
    simp only [sextets, octets?, Option.some.injEq, List.cons.injEq, and_true]
    omega
  | case3 a =>
    simp only [List.mem_singleton, forall_eq] at h
    simp only [sextets, octets?, Option.some.injEq, List.cons.injEq, and_true]
    omega
  | case4 => rfl

/-! ## Bytes and texts -/

/-- `EncodeToString`. -/
def rawUrlEncode (bytes : List UInt8) : List Char :=
  (sextets (bytes.map UInt8.toNat)).map base64UrlChar

/-- `DecodeString`. -/
def rawUrlDecode? (text : List Char) : Option (List UInt8) :=
  (((text.filter fun c => c ≠ '\r' ∧ c ≠ '\n').mapM base64UrlValue?).bind octets?).map
    fun bytes => bytes.map UInt8.ofNat

/-- Octets are read back from their text. -/
theorem rawUrlDecode?_rawUrlEncode (bytes : List UInt8) :
    rawUrlDecode? (rawUrlEncode bytes) = some bytes := by
  -- Six bits at a time: each value has its character, and none is a line end.
  have hbytes : ∀ b ∈ bytes.map UInt8.toNat, b < 256 := by
    intro b hb
    obtain ⟨c, -, rfl⟩ := List.mem_map.mp hb
    exact c.toNat_lt
  have hlt := sextets_lt hbytes
  have hkept : (rawUrlEncode bytes).filter (fun c => c ≠ '\r' ∧ c ≠ '\n') = rawUrlEncode bytes := by
    refine List.filter_eq_self.mpr fun c hc => decide_eq_true ?_
    obtain ⟨v, hv, rfl⟩ := List.mem_map.mp hc
    exact (base64UrlValue?_char (hlt v hv)).2
  have hvalues : ∀ values : List ℕ, (∀ v ∈ values, v < 64) →
      (values.map base64UrlChar).mapM base64UrlValue? = some values := by
    intro values hall
    induction values with
    | nil => rfl
    | cons v values ih =>
      rw [List.map_cons, List.mapM_cons, (base64UrlValue?_char (hall v List.mem_cons_self)).1,
        ih fun w hw => hall w (List.mem_cons_of_mem _ hw)]
      rfl
  -- The octets are read back from the sextets.
  unfold rawUrlDecode?
  rw [hkept, rawUrlEncode, hvalues _ hlt, Option.bind_some, octets?_sextets hbytes, Option.map_some,
    List.map_map]
  congr 1
  exact List.map_id'' (fun b => UInt8.ofNat_toNat) bytes

/-- The characters are of the alphabet. -/
theorem mem_rawUrlEncode {bytes : List UInt8} {c : Char} (h : c ∈ rawUrlEncode bytes) :
    ∃ v < 64, c = base64UrlChar v := by
  obtain ⟨v, hv, rfl⟩ := List.mem_map.mp h
  refine ⟨v, sextets_lt (fun b hb => ?_) v hv, rfl⟩
  obtain ⟨b, -, rfl⟩ := List.mem_map.mp hb
  exact b.toNat_lt

/-- A character that stands for no value is not in a text. -/
theorem not_mem_rawUrlEncode {c : Char} (h : base64UrlValue? c = none) (bytes : List UInt8) :
    c ∉ rawUrlEncode bytes := by
  intro hc
  obtain ⟨v, hv, rfl⟩ := mem_rawUrlEncode hc
  cases h.symm.trans (base64UrlValue?_char hv).1

/-- Only no octets have an empty text. -/
theorem rawUrlEncode_eq_nil {bytes : List UInt8} : rawUrlEncode bytes = [] ↔ bytes = [] := by
  rw [rawUrlEncode, List.map_eq_nil_iff]
  rcases bytes with _ | ⟨a, _ | ⟨b, _ | ⟨c, rest⟩⟩⟩ <;> simp [sextets]

end LedgerSync.Lib
