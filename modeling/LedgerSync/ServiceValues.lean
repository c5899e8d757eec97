import LedgerSync.Values

/-!
# Values of the services

The services run in Go, whose values differ from those of the columns: integers of 64 bits that
wrap around, times in nanoseconds, and texts that are trimmed of every Unicode space.
-/

namespace LedgerSync

open Lib

/-! ## Integers and times -/

/-- The value of an `int64` that a computation leaves. -/
def int64 (z : ℤ) : ℤ := Int.bmod z (2 ^ 64)

/-- A number within the range stays as it is. -/
theorem int64_of_fits {z : ℤ} (h : Bigint.Fits z) : int64 z = z := by
  unfold Bigint.Fits at h
  exact Int.bmod_eq_of_le_mul_two (by omega) (by omega)

/-- A `time.Time`: nanoseconds since the start of year 1. -/
abbrev Time : Type := ℤ

/-- `time.Second`. -/
def second : ℤ := 1000000000

/-- The seconds from the start of year 1 to the start of 1970. -/
def unixToInternal : ℤ := 62135596800

/-- `time.Unix(secs, 0)`. The sum wraps around for seconds in the far future. -/
def timeUnix (secs : ℤ) : Time := int64 (secs + unixToInternal) * second

/-- `t.Unix()`. -/
def Time.unix (t : Time) : ℤ := t / second - unixToInternal

/-- `int64(d.Seconds())`, of a duration that is not negative. -/
def durationSeconds (d : ℤ) : ℤ := d / second

/-! ## Texts -/

/-- `unicode.IsSpace`. -/
def isSpace (c : Char) : Bool :=
  c ∈ ['\t', '\n', '\x0b', '\x0c', '\r', ' ', '\u0085', '\u00a0', '\u1680', '\u2028', '\u2029',
    '\u202f', '\u205f', '\u3000'] ∨ (0x2000 ≤ c.toNat ∧ c.toNat ≤ 0x200a)

/-- `strings.TrimSpace`. -/
def trimSpace (s : String) : String :=
  String.ofList ((s.toList.dropWhile isSpace).rdropWhile isSpace)

/-- `unicode.ToLower`, as far as it makes letters from `a` to `z`. -/
def lowerLetter (c : Char) : Char :=
  if 'A' ≤ c ∧ c ≤ 'Z' then Char.ofNat (c.toNat + 32)
  else if c = '\u0130' then 'i'
  else if c = '\u212a' then 'k'
  else c

/-- `strings.ToLower`, for texts of which only letters from `a` to `z` are looked for. -/
def toLower (s : String) : String := String.ofList (s.toList.map lowerLetter)

/-- The pattern of `identifier.Parse`: 8, 4, 4, 4 and 12 hexadecimal digits between hyphens. -/
def HasIdentifierShape (s : String) : Prop :=
  (s.toList.splitOn '-').map List.length = [8, 4, 4, 4, 12] ∧
    ∀ c ∈ s.toList, c = '-' ∨ (hexValue? c).isSome = true

/-- Whether a text has the shape of an identifier can be decided. -/
instance HasIdentifierShape.decidable (s : String) : Decidable (HasIdentifierShape s) :=
  inferInstanceAs (Decidable (_ ∧ ∀ c ∈ _, _))

/-- `identifier.Parse`: the canonical shape in any letter case, and not the nil identifier. -/
def parseIdentifier (s : String) : Option Uuid :=
  if HasIdentifierShape s then (Uuid.ofText? s).filter (· ≠ Uuid.nil) else none

/-- The canonical text of an identifier is only read as that identifier. -/
theorem parseIdentifier_text {u v : Uuid} (h : parseIdentifier u.text = some v) : v = u := by
  unfold parseIdentifier at h
  split at h
  · rw [Uuid.ofText?_text, Option.filter_eq_some_iff] at h
    exact (Option.some.inj h.1).symm
  · cases h

end LedgerSync
