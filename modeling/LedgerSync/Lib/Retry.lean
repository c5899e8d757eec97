import Mathlib.Data.List.Basic

/-!
# Retried transactions

A callback runs inside a transaction and writes variables that live outside of it. When the
transaction fails with an error that is worth another attempt, the callback runs again, and it finds
those variables as the last attempt left them; a rollback does not reset them. The callback is a
function of what the transaction answers and of the variables, and an attempt of the environment
says how the transaction begins, what it answers, how it commits, and whether the pause after it is
interrupted.

`Retried.committed` finds the attempt that committed, and the answers of the attempts before it.
`Retried.run_committed` says that the variables are then those that the committed attempt leaves
when it starts from what the attempts before it left. `Shows` is the case in which the attempts
before it do not show in a variable: the committed attempt writes the variable, or their last write
was the value that it began with.
-/

namespace LedgerSync.Lib

/-- What the environment does in one attempt. -/
structure Attempt (ω ε : Type) where
  /-- The error of beginning the transaction. -/
  begins : Option ε
  /-- What the transaction answers to the callback. -/
  answers : ω
  /-- The error of the commit. -/
  commit : Option ε
  /-- The error that ends the pause before the next attempt. -/
  interrupt : Option ε

/-- An attempt that begins, answers, and commits. -/
def Attempt.committing {ω ε : Type} (w : ω) : Attempt ω ε := ⟨none, w, none, none⟩

/-- A callback with captured variables, and which of its errors are worth another attempt. -/
structure Retried (ω κ ε : Type) where
  /-- The callback: its error, and the variables it leaves. -/
  callback : ω → κ → Option ε × κ
  /-- The error is worth another attempt. -/
  retryable : ε → Bool
  /-- The error of a transaction that did not begin. -/
  beginError : ε → ε
  /-- The error that is reported when no attempt is left. -/
  lastError : ε → ε

namespace Retried

variable {ω κ ε : Type} (r : Retried ω κ ε)

/-- The attempts in order, until one commits or no further attempt is made. -/
def run : List (Attempt ω ε) → κ → Option ε × κ
  | [], k => (none, k)
  | a :: rest, k =>
    match a.begins with
    | some e => (some (r.beginError e), k)
    | none =>
      let after := r.callback a.answers k
      match after.1.or a.commit with
      | none => (none, after.2)
      | some e =>
        if r.retryable e = false ∨ rest = [] then (some (r.lastError e), after.2)
        else match a.interrupt with
          | some e => (some e, after.2)
          | none => run rest after.2

/-- The variables after attempts with these answers. -/
def captured (ws : List ω) (k : κ) : κ := ws.foldl (fun k w => (r.callback w k).2) k

/-- The answers of the attempts before the one that commits, and its own. -/
def committed : List (Attempt ω ε) → κ → Option (List ω × ω)
  | [], _ => none
  | a :: rest, k =>
    match a.begins with
    | some _ => none
    | none =>
      let after := r.callback a.answers k
      match after.1.or a.commit with
      | none => some ([], a.answers)
      | some e =>
        if r.retryable e = false ∨ rest = [] then none
        else match a.interrupt with
          | some _ => none
          | none => (committed rest after.2).map fun c => (a.answers :: c.1, c.2)

variable {r}

/-- The variables after a committed run are those of the committed attempt. -/
theorem run_committed {as : List (Attempt ω ε)} {k : κ} {before : List ω} {w : ω}
    (h : r.committed as k = some (before, w)) :
    (r.callback w (r.captured before k)).1 = none ∧
      r.run as k = (none, (r.callback w (r.captured before k)).2) := by
  induction as generalizing k before with
  | nil => cases h
  | cons a rest ih =>
    rw [committed] at h
    rw [run]
    -- The attempt begins and commits, begins and fails, or does not begin.
    rcases hbegins : a.begins with _ | e
    · simp only [hbegins] at h ⊢
      rcases hresult : (r.callback a.answers k).1.or a.commit with _ | e
      · simp only [hresult] at h ⊢
        obtain ⟨rfl, rfl⟩ := Prod.mk.inj (Option.some.inj h)
        exact ⟨(Option.or_eq_none_iff.mp hresult).1, rfl⟩
      · simp only [hresult] at h ⊢
        -- A failed attempt is the last one, or the loop goes on with the rest.
        by_cases hstop : r.retryable e = false ∨ rest = []
        · rw [if_pos hstop] at h
          cases h
        · rw [if_neg hstop] at h ⊢
          rcases hinterrupt : a.interrupt with _ | e'
          · simp only [hinterrupt, Option.map_eq_some_iff] at h ⊢
            obtain ⟨⟨before', w'⟩, hrest, hpair⟩ := h
            simp only [Prod.mk.injEq] at hpair
            obtain ⟨rfl, rfl⟩ := hpair
            exact ih hrest
          · simp only [hinterrupt] at h
            cases h
    · simp only [hbegins] at h
      cases h

end Retried

/-! ## Variables that an attempt may write -/

section Writes

variable {ω κ ε α : Type} {r : Retried ω κ ε}

/-- The value of a variable after attempts with these answers. -/
def lastWrite (write : ω → Option α) (before : List ω) (initial : α) : α :=
  ((before.filterMap write).getLast?).getD initial

/-- The variable shows the attempt, and not the attempts before it. -/
def Shows (write : ω → Option α) (before : List ω) (w : ω) (initial : α) : Prop :=
  write w = none → lastWrite write before initial = initial

/-- An attempt before the others gives the value that they start from. -/
theorem lastWrite_cons (write : ω → Option α) (w : ω) (before : List ω) (initial : α) :
    lastWrite write (w :: before) initial =
      lastWrite write before ((write w).getD initial) := by
  unfold lastWrite
  rcases hw : write w with _ | a
  · rw [List.filterMap_cons_none hw, Option.getD_none]
  · rw [List.filterMap_cons_some hw, List.getLast?_cons, Option.getD_some, Option.getD_some]

/-- A variable that the callback writes is after some attempts what the last of them wrote. -/
theorem captured_eq_lastWrite (get : κ → α) (write : ω → Option α)
    (h : ∀ w k, get (r.callback w k).2 = (write w).getD (get k)) (before : List ω) (k : κ) :
    get (r.captured before k) = lastWrite write before (get k) := by
  induction before generalizing k with
  | nil => rfl
  | cons w before ih =>
    rw [lastWrite_cons, ← h]
    exact ih (r.callback w k).2

/-- The committed attempt leaves in a variable what it leaves without the attempts before it. -/
theorem callback_captured_iff (get : κ → α) (write : ω → Option α)
    (h : ∀ w k, get (r.callback w k).2 = (write w).getD (get k)) (before : List ω) (w : ω) (k : κ) :
    get (r.callback w (r.captured before k)).2 = get (r.callback w k).2 ↔
      Shows write before w (get k) := by
  rw [h, h, captured_eq_lastWrite get write h]
  unfold Shows
  rcases write w with _ | a
  · simp only [Option.getD_none, true_imp_iff]
  · simp only [Option.getD_some, reduceCtorEq, false_imp_iff]

end Writes

end LedgerSync.Lib
