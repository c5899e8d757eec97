import Mathlib.Data.Option.Basic
import Mathlib.Order.Lattice

/-!
# A register that takes newer values only

Values carry a version, and a register takes an offered value when it holds none or an older one.
An offer leaves the register no older than the offer and no older than it was, so what matters of a
series of offers is the newest one: neither their order nor their repetitions show.
-/

namespace LedgerSync.Lib

variable {α ν : Type} [LinearOrder ν] {version : α → ν} {r r' r'' : Option α}

/-- The register after an offer. -/
def offer (version : α → ν) : Option α → α → Option α
  | none, a => some a
  | some held, a => if version held < version a then some a else some held

/-- The second register is not older than the first one. -/
def AtLeast (version : α → ν) (r r' : Option α) : Prop :=
  ∀ a, r = some a → ∃ x, r' = some x ∧ version a ≤ version x

/-- A register is at least itself. -/
theorem AtLeast.refl (version : α → ν) (r : Option α) : AtLeast version r r :=
  fun a ha => ⟨a, ha, le_rfl⟩

/-- Being at least another composes. -/
theorem AtLeast.trans (h : AtLeast version r r') (h' : AtLeast version r' r'') :
    AtLeast version r r'' := by
  intro a ha
  obtain ⟨x, hx, hle⟩ := h a ha
  obtain ⟨y, hy, hle'⟩ := h' x hx
  exact ⟨y, hy, hle.trans hle'⟩

/-- The register is not older than the offer. -/
theorem atLeast_some_offer (version : α → ν) (r : Option α) (a : α) :
    AtLeast version (some a) (offer version r a) := by
  rintro _ ⟨⟩
  rcases r with _ | held
  · exact ⟨a, rfl, le_rfl⟩
  · by_cases hlt : version held < version a
    · exact ⟨a, if_pos hlt, le_rfl⟩
    · exact ⟨held, if_neg hlt, not_lt.mp hlt⟩

/-- An offer does not take the register back. -/
theorem atLeast_offer (version : α → ν) (r : Option α) (a : α) :
    AtLeast version r (offer version r a) := by
  rintro held rfl
  by_cases hlt : version held < version a
  · exact ⟨a, if_pos hlt, hlt.le⟩
  · exact ⟨held, if_neg hlt, le_rfl⟩

end LedgerSync.Lib
