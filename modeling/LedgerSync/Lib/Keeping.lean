import LedgerSync.Lib.Transaction

/-!
# What a procedure keeps

A procedure keeps a property when every return of it from a store with the property leaves a store
with the property. The rules follow the statements of a procedure, so that a frame condition such as
"this column is never written" is proved by going along the text of the procedure.
-/

namespace LedgerSync.Lib

namespace Txn

variable {σ ε α β : Type}

/-- Whenever the procedure returns, it leaves the property as it was. -/
def Keeps (I : σ → Prop) (x : Txn σ ε α) : Prop := ∀ s a s', x s = .ok (a, s') → I s → I s'

namespace Keeps

variable {I : σ → Prop}

/-- A value keeps the invariant. -/
theorem pure (a : α) : Keeps I (Pure.pure a : Txn σ ε α) := by
  intro s b s' h hs
  obtain ⟨-, rfl⟩ := pure_ok.mp h
  exact hs

/-- A sequence keeps what both of its parts keep. -/
theorem bind {x : Txn σ ε α} {f : α → Txn σ ε β} (hx : Keeps I x) (hf : ∀ a, Keeps I (f a)) :
    Keeps I (x >>= f) := by
  intro s b s' h hs
  obtain ⟨a, s₁, ha, hb⟩ := bind_ok.mp h
  exact hf a s₁ b s' hb (hx s a s₁ ha hs)

/-- What is done with the store may rely on the property of the store. -/
theorem get_bind {f : σ → Txn σ ε β} (hf : ∀ s, I s → Keeps I (f s)) : Keeps I (get >>= f) :=
  fun s b s' h hs => hf s hs s b s' h hs

/-- Setting a state that has the invariant keeps it. -/
theorem set {t : σ} (ht : I t) : Keeps I (Txn.set t : Txn σ ε Unit) := by
  intro s a s' h _
  rw [← set_ok.mp h]
  exact ht

/-- What follows such a setting decides. -/
theorem set_bind {t : σ} {f : Unit → Txn σ ε β} (ht : I t) (hf : Keeps I (f ())) :
    Keeps I (Txn.set t >>= f) :=
  fun _ b s' h _ => hf t b s' (set_bind_ok.mp h) ht

/-- A check keeps the invariant. -/
theorem raiseIf (c : Prop) [Decidable c] (e : ε) : Keeps I (Txn.raiseIf c e) := by
  intro s a s' h hs
  rw [← (raiseIf_ok.mp h).2]
  exact hs

/-- An option keeps the invariant. -/
theorem orRaise (o : Option α) (e : ε) : Keeps I (Txn.orRaise o e) := by
  intro s a s' h hs
  rw [← (orRaise_ok.mp h).2]
  exact hs

/-- A procedure by cases keeps what both of its cases keep. -/
theorem ite {c : Prop} [Decidable c] {x y : Txn σ ε α} (hx : c → Keeps I x) (hy : ¬c → Keeps I y) :
    Keeps I (if c then x else y) := by
  by_cases h : c
  · rw [if_pos h]
    exact hx h
  · rw [if_neg h]
    exact hy h

/-- A discarded procedure keeps what the procedure keeps. -/
theorem discard {x : Txn σ ε α} (hx : Keeps I x) : Keeps I (Txn.discard x) :=
  hx.bind fun _ => pure ()

end Keeps

end Txn

end LedgerSync.Lib
