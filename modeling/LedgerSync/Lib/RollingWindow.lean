import Mathlib.Algebra.Order.Group.Int
import LedgerSync.Lib.Table

/-!
# Rolling windows

Rows of a table have a time and a weight. A rolling limit asks that the rows of every window
`(T - length, T]` weigh at most the limit. Rows arrive in any order of their times, so a check
against the window that ends at the new row is not enough: the windows that matter are all those
that the new row falls into. They lie within the rows later than `time - length`, so it is enough
to weigh these (`window_insert?`).
-/

namespace LedgerSync.Lib

namespace Table

variable {ρ κ : Type} {key : ρ → κ}

/-- The weight of the rows in the window of the given length that ends at `T`. -/
def window (t : Table key) (time weight : ρ → ℤ) (length T : ℤ) : ℤ :=
  t.total fun r => if T - length < time r ∧ time r ≤ T then weight r else 0

/-- The weight of the rows later than `start`. -/
def since (t : Table key) (time weight : ρ → ℤ) (start : ℤ) : ℤ :=
  t.total fun r => if start < time r then weight r else 0

variable {t t' : Table key} {time weight : ρ → ℤ} {length T : ℤ}

/-- Nothing counts in an empty table. -/
@[simp]
theorem window_empty : (empty : Table key).window time weight length T = 0 := rfl

/-- A window that ends at `now` or later is among the rows of less than its length before
`now`. -/
theorem window_le_since {now : ℤ} (hweight : ∀ r ∈ t, 0 ≤ weight r) (hend : now ≤ T) :
    t.window time weight length T ≤ t.since time weight (now - length) := by
  apply total_le_total
  intro r hr
  by_cases hin : T - length < time r ∧ time r ≤ T
  · rw [if_pos hin, if_pos (by omega)]
  · rw [if_neg hin]
    split_ifs
    · exact hweight r hr
    · exact le_refl 0

/-- A row that comes to weigh something keeps a rolling limit when the rows that can share a window
with it leave room for its weight. -/
theorem window_grow {r : ρ} {limit : ℤ}
    (hsplit : ∀ T, t'.window time weight length T =
      (if T - length < time r ∧ time r ≤ T then weight r else 0) + t.window time weight length T)
    (hweight : ∀ x ∈ t, 0 ≤ weight x)
    (hroom : weight r ≠ 0 → t.since time weight (time r - length) + weight r ≤ limit)
    (hlimit : ∀ T, t.window time weight length T ≤ limit) :
    ∀ T, t'.window time weight length T ≤ limit := by
  intro T
  rw [hsplit]
  by_cases hin : (T - length < time r ∧ time r ≤ T) ∧ weight r ≠ 0
  · obtain ⟨⟨hstart, hend⟩, hne⟩ := hin
    have hsince : t.window time weight length T ≤ t.since time weight (time r - length) :=
      window_le_since hweight hend
    have hroom' := hroom hne
    rw [if_pos ⟨hstart, hend⟩]
    omega
  · -- Outside of the window, or without weight, the row adds nothing.
    have hzero : (if T - length < time r ∧ time r ≤ T then weight r else 0) = 0 := by
      split_ifs with hin'
      · by_contra hne
        exact hin ⟨hin', hne⟩
      · rfl
    rw [hzero, zero_add]
    exact hlimit T

variable [DecidableEq κ]

/-- One more row keeps a rolling limit when the rows that can share a window with it leave room for
its weight. -/
theorem window_insert? {r : ρ} {limit : ℤ} (hins : t.insert? r = some t')
    (hweight : ∀ x ∈ t, 0 ≤ weight x)
    (hroom : weight r ≠ 0 → t.since time weight (time r - length) + weight r ≤ limit)
    (hlimit : ∀ T, t.window time weight length T ≤ limit) :
    ∀ T, t'.window time weight length T ≤ limit :=
  window_grow (fun _ => total_insert? hins _) hweight hroom hlimit

/-- A weightless row exchanged for one that weighs something. -/
theorem window_replace {r x : ρ} {limit : ℤ} (hfind : t.find? (key r) = some x)
    (hzero : weight x = 0) (hweight : ∀ x ∈ t, 0 ≤ weight x)
    (hroom : weight r ≠ 0 → t.since time weight (time r - length) + weight r ≤ limit)
    (hlimit : ∀ T, t.window time weight length T ≤ limit) :
    ∀ T, (t.replace r).window time weight length T ≤ limit := by
  refine window_grow (fun T => ?_) hweight hroom hlimit
  unfold window
  rw [total_replace hfind, hzero]
  simp only [ite_self, sub_zero]
  exact add_comm _ _

/-- A row exchanged for one of the same time and weight. -/
theorem window_replace_of_eq {r x : ρ} (hfind : t.find? (key r) = some x) (htime : time r = time x)
    (hweight : weight r = weight x) (T : ℤ) :
    (t.replace r).window time weight length T = t.window time weight length T := by
  unfold window
  rw [total_replace hfind, htime, hweight, sub_self, add_zero]

/-- A row without weight exchanged for another. -/
theorem window_replace_of_zero {r x : ρ} (hfind : t.find? (key r) = some x) (hr : weight r = 0)
    (hx : weight x = 0) (T : ℤ) :
    (t.replace r).window time weight length T = t.window time weight length T := by
  unfold window
  rw [total_replace hfind, hr, hx]
  simp

end Table

end LedgerSync.Lib
