import LedgerSync.Lib.Transaction

/-!
# What a procedure raises

The errors that a procedure can raise, from whatever store it starts. As for what it keeps, the
rules follow the statements of a procedure.
-/

namespace LedgerSync.Lib

namespace Txn

variable {σ ε α β : Type}

/-- Every error of the procedure is one that `E` allows. -/
def Raises (E : ε → Prop) (x : Txn σ ε α) : Prop := ∀ s e, x s = .error e → E e

namespace Raises

variable {E : ε → Prop}

/-- What raises only some errors raises only more. -/
theorem mono {E' : ε → Prop} {x : Txn σ ε α} (hx : Raises E x) (h : ∀ e, E e → E' e) :
    Raises E' x :=
  fun s e herr => h e (hx s e herr)

/-- A value raises nothing. -/
theorem pure (a : α) : Raises E (Pure.pure a : Txn σ ε α) := by
  intro s e h
  cases h

/-- A sequence raises only what both of its parts raise. -/
theorem bind {x : Txn σ ε α} {f : α → Txn σ ε β} (hx : Raises E x) (hf : ∀ a, Raises E (f a)) :
    Raises E (x >>= f) := by
  intro s e h
  rcases bind_error.mp h with herr | ⟨a, s₁, -, herr⟩
  · exact hx s e herr
  · exact hf a s₁ e herr

/-- What follows a reading decides. -/
theorem get_bind {f : σ → Txn σ ε β} (hf : ∀ s, Raises E (f s)) : Raises E (get >>= f) :=
  fun s e h => hf s s e h

/-- A setting raises nothing. -/
theorem set (t : σ) : Raises E (Txn.set t : Txn σ ε Unit) := by
  intro s e h
  cases h

/-- A check raises only its error. -/
theorem raiseIf {c : Prop} [Decidable c] {e : ε} (he : E e) :
    Raises E (Txn.raiseIf c e : Txn σ ε Unit) := by
  intro s e' h
  unfold Txn.raiseIf at h
  split_ifs at h
  obtain rfl := Except.error.inj h
  exact he

/-- An option raises only its error. -/
theorem orRaise {o : Option α} {e : ε} (he : E e) : Raises E (Txn.orRaise o e : Txn σ ε α) := by
  intro s e' h
  unfold Txn.orRaise at h
  split at h
  · cases h
  · obtain rfl := Except.error.inj h
    exact he

/-- A procedure by cases raises only what both of its cases raise. -/
theorem ite {c : Prop} [Decidable c] {x y : Txn σ ε α} (hx : Raises E x) (hy : Raises E y) :
    Raises E (if c then x else y) := by
  by_cases h : c
  · rwa [if_pos h]
  · rwa [if_neg h]

end Raises

end Txn

end LedgerSync.Lib
