import Mathlib.Data.List.Induction

/-!
# Transactions that roll back

A stored procedure reads and writes a store, and either returns a value or raises. What it wrote
before it raised is rolled back, so a procedure is a function from a store to an error or a value
with a new store (`Txn`). A block with an exception handler starts from a savepoint: its handler
sees the store as it was before the block (`Txn.attempt`).

The lemmas `..._ok` say when a procedure returns; rewriting with them turns a call that returned
into the conjunction of what its statements did. `Txn.Outcome` states what a procedure returns and
what it raises at once, with a rule for each statement and for loops. `run` executes a list of calls
one after another, as a serializable database does, and `run_invariant` is the induction that every
invariant of a whole history goes through.
-/

namespace LedgerSync.Lib

/-- A procedure over a store `σ` that returns an `α` or raises an `ε`. -/
def Txn (σ ε α : Type) : Type := σ → Except ε (α × σ)

namespace Txn

variable {σ ε α β : Type}

/-- Procedures in sequence: an error ends the sequence, and the state goes from one to the next. -/
instance : Monad (Txn σ ε) where
  pure a := fun s => .ok (a, s)
  bind x f := fun s => match x s with
    | .ok (a, s') => f a s'
    | .error e => .error e

/-- The store as the procedure sees it now. -/
def get : Txn σ ε σ := fun s => .ok (s, s)

/-- Replace the store. -/
def set (s' : σ) : Txn σ ε Unit := fun _ => .ok ((), s')

/-- Raise an error. -/
def raise (e : ε) : Txn σ ε α := fun _ => .error e

/-- Raise an error when a condition holds. -/
def raiseIf (c : Prop) [Decidable c] (e : ε) : Txn σ ε Unit :=
  fun s => if c then .error e else .ok ((), s)

/-- The value of an option, or an error when there is none. -/
def orRaise (o : Option α) (e : ε) : Txn σ ε α := fun s => match o with
  | some a => .ok (a, s)
  | none => .error e

/-- A computation that needs no store. -/
def ofExcept (x : Except ε α) : Txn σ ε α := fun s => match x with
  | .ok a => .ok (a, s)
  | .error e => .error e

/-- A block with an exception handler. The handler starts from the store at the block's start. -/
def attempt (x : Txn σ ε α) (handler : ε → Txn σ ε α) : Txn σ ε α := fun s => match x s with
  | .ok r => .ok r
  | .error e => handler e s

/-- A procedure whose value is not used. -/
def discard (x : Txn σ ε α) : Txn σ ε Unit := x >>= fun _ => pure ()

/-- A procedure on a part of the state, its errors as errors of the whole. -/
def within {τ ε' : Type} (wrap : ε' → ε) (part : σ → τ) (put : σ → τ → σ) (x : Txn τ ε' α) :
    Txn σ ε α := fun s =>
  match x (part s) with
  | .ok (a, t) => .ok (a, put s t)
  | .error e => .error (wrap e)

/-- A procedure on a part of the state, with the same errors. -/
def zoom {τ : Type} (part : σ → τ) (put : σ → τ → σ) (x : Txn τ ε α) : Txn σ ε α :=
  within id part put x

/-! ## When a procedure returns -/

/-- A value returns as itself and changes nothing. -/
@[simp]
theorem pure_ok {a b : α} {s s' : σ} :
    (pure a : Txn σ ε α) s = .ok (b, s') ↔ a = b ∧ s = s' := by
  change Except.ok (a, s) = Except.ok (b, s') ↔ _
  simp

/-- A sequence returns when its first part does and its second part does from there. -/
@[simp]
theorem bind_ok {x : Txn σ ε α} {f : α → Txn σ ε β} {s s' : σ} {b : β} :
    (x >>= f) s = .ok (b, s') ↔ ∃ a s₁, x s = .ok (a, s₁) ∧ f a s₁ = .ok (b, s') := by
  change (match x s with
    | .ok (a, s₁) => f a s₁
    | .error e => .error e) = Except.ok (b, s') ↔ _
  rcases x s with e | ⟨a, s₁⟩ <;> simp

/-- Reading the state returns it and changes nothing. -/
@[simp]
theorem get_ok {s t s' : σ} : (get : Txn σ ε σ) s = .ok (t, s') ↔ s = t ∧ s = s' := by
  simp [get]

/-- Setting the state returns in the new one. -/
@[simp]
theorem set_ok {s t s' : σ} {u : Unit} :
    (set t : Txn σ ε Unit) s = .ok (u, s') ↔ t = s' := by
  simp [set]

/-- Raising never returns. -/
@[simp]
theorem raise_ok {e : ε} {s s' : σ} {a : α} :
    (raise e : Txn σ ε α) s = .ok (a, s') ↔ False := by
  simp [raise]

/-- A check returns exactly when its condition is false. -/
@[simp]
theorem raiseIf_ok {c : Prop} [Decidable c] {e : ε} {s s' : σ} {u : Unit} :
    (raiseIf c e : Txn σ ε Unit) s = .ok (u, s') ↔ ¬c ∧ s = s' := by
  by_cases h : c <;> simp [raiseIf, h]

/-- An option returns its value when it has one. -/
@[simp]
theorem orRaise_ok {o : Option α} {e : ε} {s s' : σ} {a : α} :
    (orRaise o e : Txn σ ε α) s = .ok (a, s') ↔ o = some a ∧ s = s' := by
  cases o <;> simp [orRaise]

/-- A procedure inside a procedure is the sequence of its statements. -/
theorem bind_assoc {γ : Type} (x : Txn σ ε α) (f : α → Txn σ ε β) (g : β → Txn σ ε γ) :
    x >>= f >>= g = x >>= fun a => f a >>= g := by
  funext s
  change (match (match x s with
      | .ok (a, s₁) => f a s₁
      | .error e => .error e) with
    | .ok (b, s₂) => g b s₂
    | .error e => .error e) = _
  rcases h : x s with e | ⟨a, s₁⟩ <;> simp [bind, h]

/-! The same for a statement with the rest of its procedure behind it. These rewrite a procedure
into what its statements checked and wrote, without naming the stores in between. -/

section Sequence

variable {β : Type} {s s' : σ} {b : β}

/-- What follows a reading runs on the state that is read. -/
@[simp]
theorem get_bind_ok {f : σ → Txn σ ε β} : (get >>= f) s = .ok (b, s') ↔ f s s = .ok (b, s') :=
  Iff.rfl

/-- What follows a setting runs in the new state. -/
@[simp]
theorem set_bind_ok {t : σ} {f : Unit → Txn σ ε β} :
    (set t >>= f) s = .ok (b, s') ↔ f () t = .ok (b, s') :=
  Iff.rfl

/-- What follows a check runs when the condition is false. -/
@[simp]
theorem raiseIf_bind_ok {c : Prop} [Decidable c] {e : ε} {f : Unit → Txn σ ε β} :
    (raiseIf c e >>= f) s = .ok (b, s') ↔ ¬c ∧ f () s = .ok (b, s') := by
  rw [bind_ok]
  constructor
  · rintro ⟨_, _, hpass, hf⟩
    obtain ⟨hc, rfl⟩ := raiseIf_ok.mp hpass
    exact ⟨hc, hf⟩
  · rintro ⟨hc, hf⟩
    exact ⟨(), s, raiseIf_ok.mpr ⟨hc, rfl⟩, hf⟩

/-- What follows an option runs on its value. -/
@[simp]
theorem orRaise_bind_ok {o : Option α} {e : ε} {f : α → Txn σ ε β} :
    (orRaise o e >>= f) s = .ok (b, s') ↔ ∃ a, o = some a ∧ f a s = .ok (b, s') := by
  simp [and_assoc]

/-- What follows a result runs on its value. -/
@[simp]
theorem ofExcept_bind_ok {x : Except ε α} {f : α → Txn σ ε β} :
    (ofExcept x >>= f) s = .ok (b, s') ↔ ∃ a, x = .ok a ∧ f a s = .ok (b, s') := by
  rw [bind_ok]
  rcases x with e | a <;> simp [ofExcept, and_assoc]

end Sequence

/-- A discarded procedure returns when the procedure does. -/
theorem discard_ok {x : Txn σ ε α} {s s' : σ} {u : Unit} :
    discard x s = .ok (u, s') ↔ ∃ a, x s = .ok (a, s') := by
  simp [discard]

/-- What returns on a part returns on the whole, with the part put back. -/
theorem within_ok {τ ε' : Type} {wrap : ε' → ε} {part : σ → τ} {put : σ → τ → σ} {x : Txn τ ε' α}
    {s s' : σ} {a : α} : within wrap part put x s = .ok (a, s') ↔
      ∃ t, x (part s) = .ok (a, t) ∧ s' = put s t := by
  unfold within
  rcases x (part s) with e | ⟨b, t⟩
  · simp
  · simp only [Except.ok.injEq, Prod.mk.injEq]
    constructor
    · rintro ⟨rfl, rfl⟩
      exact ⟨t, ⟨rfl, rfl⟩, rfl⟩
    · rintro ⟨t', ⟨rfl, rfl⟩, rfl⟩
      exact ⟨rfl, rfl⟩

/-- The same for a procedure whose errors stay as they are. -/
theorem zoom_ok {τ : Type} {part : σ → τ} {put : σ → τ → σ} {x : Txn τ ε α} {s s' : σ} {a : α} :
    zoom part put x s = .ok (a, s') ↔ ∃ t, x (part s) = .ok (a, t) ∧ s' = put s t :=
  within_ok

/-- A block with a handler returns when the block does, or when it raises and the handler returns.
-/
theorem attempt_ok {x : Txn σ ε α} {handler : ε → Txn σ ε α} {s s' : σ} {a : α} :
    attempt x handler s = .ok (a, s') ↔
      x s = .ok (a, s') ∨ ∃ e, x s = .error e ∧ handler e s = .ok (a, s') := by
  unfold attempt
  rcases x s with e | r <;> simp

/-! ## Running a procedure

The same statements the other way round: what a procedure whose first statement is known to return
goes on with. -/

section Running

variable {β : Type} {s s₁ : σ}

/-- After a procedure that returns, the rest runs from where it stopped. -/
theorem bind_of_ok {x : Txn σ ε α} {f : α → Txn σ ε β} {a : α} (h : x s = .ok (a, s₁)) :
    (x >>= f) s = f a s₁ := by
  change (match x s with
    | .ok (a, s₁) => f a s₁
    | .error e => .error e) = _
  rw [h]

/-- After a procedure that raises, nothing runs. -/
theorem bind_of_error {x : Txn σ ε α} {f : α → Txn σ ε β} {e : ε} (h : x s = .error e) :
    (x >>= f) s = .error e := by
  change (match x s with
    | .ok (a, s₁) => f a s₁
    | .error e => .error e) = _
  rw [h]

/-- Sequences with the same first step are the same. -/
theorem bind_congr {x y : Txn σ ε α} {f : α → Txn σ ε β} (h : x s = y s) :
    (x >>= f) s = (y >>= f) s := by
  change (match x s with
    | .ok (a, s₁) => f a s₁
    | .error e => .error e) = _
  rw [h]
  rfl

/-- A procedure returns when its first statement does and the rest returns from there. -/
theorem exists_bind {x : Txn σ ε α} {f : α → Txn σ ε β} {P : σ → Prop} {a : α} {b : β}
    (hx : ∃ s₁, x s = .ok (a, s₁) ∧ P s₁) (hf : ∀ s₁, P s₁ → ∃ s', f a s₁ = .ok (b, s')) :
    ∃ s', (x >>= f) s = .ok (b, s') := by
  obtain ⟨s₁, hx, hP⟩ := hx
  rw [bind_of_ok hx]
  exact hf s₁ hP

/-- A reading passes the state on. -/
theorem get_bind {f : σ → Txn σ ε β} : (get >>= f) s = f s s := rfl

/-- A check that passes is as if it were not there. -/
theorem raiseIf_bind_of_neg {c : Prop} [Decidable c] {e : ε} {f : Unit → Txn σ ε β} (h : ¬c) :
    (raiseIf c e >>= f) s = f () s :=
  bind_of_ok (raiseIf_ok.mpr ⟨h, rfl⟩)

/-- A check that fails raises its error. -/
theorem raiseIf_bind_of_pos {c : Prop} [Decidable c] {e : ε} {f : Unit → Txn σ ε β} (h : c) :
    (raiseIf c e >>= f) s = .error e :=
  bind_of_error (by simp [raiseIf, h])

end Running

/-! ## When a procedure raises -/

/-- A sequence raises when its first part does, or its second part after it. -/
theorem bind_error {x : Txn σ ε α} {f : α → Txn σ ε β} {s : σ} {e : ε} :
    (x >>= f) s = .error e ↔
      x s = .error e ∨ ∃ a s₁, x s = .ok (a, s₁) ∧ f a s₁ = .error e := by
  change (match x s with
    | .ok (a, s₁) => f a s₁
    | .error e => .error e) = Except.error e ↔ _
  rcases x s with e' | ⟨a, s₁⟩ <;> simp

/-! ## Outcomes

What a procedure leaves when it returns, together with what it can raise. The rules follow the
statements of a procedure; a loop has an invariant over the elements that it has passed. -/

/-- From `s`, the procedure returns only what `Q` allows and raises only what `E` allows. -/
def Outcome (x : Txn σ ε α) (s : σ) (Q : α → σ → Prop) (E : ε → Prop) : Prop :=
  (∀ a s', x s = .ok (a, s') → Q a s') ∧ ∀ e, x s = .error e → E e

section Outcome

variable {Q : β → σ → Prop} {E : ε → Prop} {s : σ}

/-- A value ends where it is. -/
theorem Outcome.pure {b : β} (h : Q b s) : Outcome (pure b : Txn σ ε β) s Q E := by
  refine ⟨fun a s' hok => ?_, fun e herr => by cases herr⟩
  obtain ⟨rfl, rfl⟩ := pure_ok.mp hok
  exact h

/-- A sequence ends as its second part does, from every end of its first. -/
theorem Outcome.bind {x : Txn σ ε α} {f : α → Txn σ ε β} {R : α → σ → Prop} (hx : Outcome x s R E)
    (hf : ∀ a s', R a s' → Outcome (f a) s' Q E) : Outcome (x >>= f) s Q E := by
  constructor
  · intro b s' hok
    obtain ⟨a, s₁, ha, hb⟩ := bind_ok.mp hok
    exact (hf a s₁ (hx.1 a s₁ ha)).1 b s' hb
  · intro e herr
    obtain ha | ⟨a, s₁, ha, hb⟩ := bind_error.mp herr
    · exact hx.2 e ha
    · exact (hf a s₁ (hx.1 a s₁ ha)).2 e hb

/-- A reading ends as what follows it. -/
theorem Outcome.get_bind {f : σ → Txn σ ε β} (h : Outcome (f s) s Q E) :
    Outcome (get >>= f) s Q E :=
  h

/-- A setting ends as what follows it in the new state. -/
theorem Outcome.set_bind {t : σ} {f : Unit → Txn σ ε β} (h : Outcome (f ()) t Q E) :
    Outcome (set t >>= f) s Q E :=
  h

/-- A check ends in its error, or as what follows it. -/
theorem Outcome.raiseIf_bind {c : Prop} [Decidable c] {e : ε} {f : Unit → Txn σ ε β}
    (hraise : c → E e) (hpass : ¬c → Outcome (f ()) s Q E) : Outcome (raiseIf c e >>= f) s Q E := by
  by_cases h : c
  · have hrun : (raiseIf c e >>= f) s = .error e := raiseIf_bind_of_pos h
    refine ⟨fun b s' hok => ?_, fun e' herr => ?_⟩
    · rw [hrun] at hok
      cases hok
    · rw [hrun] at herr
      cases herr
      exact hraise h
  · have hrun : (raiseIf c e >>= f) s = f () s := raiseIf_bind_of_neg h
    unfold Outcome
    rw [hrun]
    exact hpass h

/-- An option ends in its error, or as what follows it on its value. -/
theorem Outcome.orRaise_bind {o : Option α} {e : ε} {f : α → Txn σ ε β} (hraise : o = none → E e)
    (hpass : ∀ a, o = some a → Outcome (f a) s Q E) : Outcome (orRaise o e >>= f) s Q E := by
  cases o with
  | none =>
    refine ⟨fun b s' hok => (by cases hok), fun e' herr => ?_⟩
    cases herr
    exact hraise rfl
  | some a => exact hpass a rfl

/-- A loop keeps an invariant over the elements that it has passed. -/
theorem Outcome.foldlM {f : β → α → Txn σ ε β} {I : List α → β → σ → Prop} {l : List α} {b : β}
    (hstart : I [] b s) (hstep : ∀ pre x post b s, l = pre ++ x :: post → I pre b s →
      Outcome (f b x) s (I (pre ++ [x])) E) : Outcome (l.foldlM f b) s (I l) E := by
  suffices h : ∀ pre post b s, l = pre ++ post → I pre b s →
      Outcome (post.foldlM f b) s (I l) E from h [] l b s rfl hstart
  intro pre post
  induction post generalizing pre with
  | nil =>
    intro b s hl hI
    rw [List.append_nil] at hl
    rw [List.foldlM_nil]
    exact .pure (hl ▸ hI)
  | cons x post ih =>
    intro b s hl hI
    rw [List.foldlM_cons]
    refine (hstep pre x post b s hl hI).bind fun b' s' hI' => ?_
    exact ih (pre ++ [x]) b' s' (by simpa using hl) hI'

end Outcome
end Txn

/-! ## Serial histories -/

section Histories

variable {σ ε α κ : Type}

/-- The store after a call: what the call left when it returned, and the store before it when it
raised. -/
def commit (x : Txn σ ε α) (s : σ) : σ := match x s with
  | .ok (_, s') => s'
  | .error _ => s

/-- The store after a list of calls, each applied to what the calls before it left. -/
def run (step : κ → Txn σ ε α) (cs : List κ) (s : σ) : σ :=
  cs.foldl (fun s c => commit (step c) s) s

/-- A procedure that returns leaves the state that it returned in. -/
theorem commit_of_ok {x : Txn σ ε α} {s s' : σ} {a : α} (h : x s = .ok (a, s')) :
    commit x s = s' := by
  simp [commit, h]

/-- A procedure that raises leaves the state as it was. -/
theorem commit_of_error {x : Txn σ ε α} {s : σ} {e : ε} (h : x s = .error e) :
    commit x s = s := by
  simp [commit, h]

/-- A call either raised and changed nothing, or returned. -/
theorem commit_cases (x : Txn σ ε α) (s : σ) :
    commit x s = s ∨ ∃ a, x s = .ok (a, commit x s) := by
  rcases h : x s with e | ⟨a, s'⟩
  · exact .inl (commit_of_error h)
  · exact .inr ⟨a, by rw [commit_of_ok h]⟩

/-- A property that every returning call keeps is kept by every call. -/
theorem commit_invariant {x : Txn σ ε α} {I : σ → Prop} {s : σ}
    (hx : ∀ a s', x s = .ok (a, s') → I s → I s') (hs : I s) : I (commit x s) := by
  rcases commit_cases x s with h | ⟨a, h⟩
  · rw [h]
    exact hs
  · exact hx a _ h hs

/-- An empty history changes nothing. -/
@[simp]
theorem run_nil (step : κ → Txn σ ε α) (s : σ) : run step [] s = s := rfl

/-- A history is its first call and then the rest. -/
@[simp]
theorem run_cons (step : κ → Txn σ ε α) (c : κ) (cs : List κ) (s : σ) :
    run step (c :: cs) s = run step cs (commit (step c) s) := rfl

/-- A history of two parts is the second after the first. -/
theorem run_append (step : κ → Txn σ ε α) (cs ds : List κ) (s : σ) :
    run step (cs ++ ds) s = run step ds (run step cs s) := by
  simp [run]

/-- A property that every returning call keeps holds after every history that starts with it. -/
theorem run_invariant {step : κ → Txn σ ε α} {I : σ → Prop}
    (hstep : ∀ c s a s', step c s = .ok (a, s') → I s → I s') (cs : List κ) {s : σ}
    (hs : I s) : I (run step cs s) := by
  induction cs generalizing s with
  | nil => exact hs
  | cons c cs ih => exact ih (commit_invariant (hstep c s) hs)

/-- The same where a call may rely on what its history says of the store that it meets; the
property then holds all along the history. -/
theorem run_prefix_invariant {step : κ → Txn σ ε α} {I : σ → Prop} {cs : List κ} {s : σ}
    (hstep : ∀ pre c post, cs = pre ++ c :: post → ∀ a s', step c (run step pre s) = .ok (a, s') →
      I (run step pre s) → I s') (hs : I s) {l : List κ} (hl : l <+: cs) : I (run step l s) := by
  induction l using List.reverseRecOn with
  | nil => exact hs
  | append_singleton l c ih =>
    obtain ⟨post, rfl⟩ := hl
    have hpre : l <+: l ++ [c] ++ post := ⟨c :: post, by simp⟩
    rw [run_append]
    exact commit_invariant (hstep l c post (by simp)) (ih hpre)

/-- A property that fails at the start of a history and holds at its end was brought about by one
of its calls; the first such call is meant. -/
theorem run_crossing {step : κ → Txn σ ε α} {Q : σ → Prop} {cs : List κ} {s : σ} (hs : ¬Q s)
    (he : Q (run step cs s)) :
    ∃ pre c post, cs = pre ++ c :: post ∧ (∀ l, l <+: pre → ¬Q (run step l s)) ∧
      Q (commit (step c) (run step pre s)) := by
  induction cs generalizing s with
  | nil => exact absurd he hs
  | cons c cs ih =>
    by_cases hc : Q (commit (step c) s)
    · refine ⟨[], c, cs, rfl, fun l hl => ?_, hc⟩
      rw [List.prefix_nil.mp hl]
      exact hs
    · obtain ⟨pre, c', post, rfl, hpre, hQ⟩ := ih hc he
      refine ⟨c :: pre, c', post, rfl, fun l hl => ?_, hQ⟩
      rcases List.prefix_cons_iff.mp hl with rfl | ⟨l', rfl, hl'⟩
      · exact hs
      · exact hpre l' hl'

end Histories

end LedgerSync.Lib
