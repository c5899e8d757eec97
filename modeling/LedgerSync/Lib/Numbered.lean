import Mathlib.Data.List.Basic
import Mathlib.Tactic.Ring

/-!
# Numbered lists

The entries of a log carry numbers of their own. `Numbered` says that these are 1, 2, 3 and so on in
the order of the log: none is missing and none is used twice. A log stays numbered when an entry
with the next number is appended, and the entry with the greatest number is the last one.
-/

namespace LedgerSync.Lib

variable {α : Type} {number : α → ℤ} {l : List α} {a : α}

/-- The entries are numbered from 1 on. -/
def Numbered (number : α → ℤ) (l : List α) : Prop :=
  l.map number = (List.range l.length).map fun k : ℕ => (k : ℤ) + 1

/-- An empty list is numbered. -/
theorem numbered_nil : Numbered number [] := rfl

/-- An entry with the next number can be appended. -/
theorem Numbered.append (h : Numbered number l) (ha : number a = l.length + 1) :
    Numbered number (l ++ [a]) := by
  unfold Numbered at h ⊢
  rw [List.map_append, h, List.length_append, List.length_singleton, List.range_succ,
    List.map_append, List.map_singleton, List.map_singleton, ha]

/-- The element at a position has the next number. -/
theorem Numbered.number_of_getElem? (h : Numbered number l) {k : ℕ} (hk : l[k]? = some a) :
    number a = k + 1 := by
  have hmap : (l.map number)[k]? = some (number a) := by rw [List.getElem?_map, hk]; rfl
  have hlt : k < l.length := (List.getElem?_eq_some_iff.mp hk).1
  unfold Numbered at h
  rw [h, List.getElem?_map, List.getElem?_range hlt] at hmap
  exact (Option.some.inj hmap).symm

/-- The entry with the greatest number is the last one, and has the length of the log as its
number. -/
theorem Numbered.getLast?_of_max (h : Numbered number l) (ha : a ∈ l)
    (hmax : ∀ b ∈ l, number b ≤ number a) : l.getLast? = some a ∧ number a = l.length := by
  obtain ⟨k, hk, rfl⟩ := List.mem_iff_getElem.mp ha
  have hnumber : number l[k] = k + 1 := h.number_of_getElem? (List.getElem?_eq_getElem hk)
  have hpos : 0 < l.length := by omega
  have hlast : l[l.length - 1]? = some l[l.length - 1] := List.getElem?_eq_getElem (by omega)
  have hlastNumber := h.number_of_getElem? hlast
  have hle := hmax l[l.length - 1] (List.getElem_mem _)
  have hkl : k = l.length - 1 := by omega
  subst hkl
  exact ⟨by rw [List.getLast?_eq_getElem?, hlast], by omega⟩

end LedgerSync.Lib
