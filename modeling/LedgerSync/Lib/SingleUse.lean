import Mathlib.Data.List.Basic

/-!
# Tickets that are used once

A guard lets calls in with tickets and remembers each ticket for a while. It cannot remember tickets
for ever, and what it has let go of it may let in again. So a ticket is used once as far as nobody
presents it after the guard has let go of it (`Guard.Timely`), and what has to be shown of a guard
is that it remembers until then (`Guard.Remembers`); `Guard.Remembers.nodup_admitted` puts the two
together for every history.
-/

namespace LedgerSync.Lib

/-- A guard with states `σ` for calls `κ` and tickets `ι`, whose expiries are of type `ε`. -/
structure Guard (κ σ ι ε : Type) where
  /-- The ticket that a call presents, and its expiry. -/
  presents : κ → Option (ι × ε)
  /-- The call is let in. -/
  passes : κ → σ → Bool
  /-- The state after a call. -/
  step : κ → σ → σ
  /-- A call leaves the tickets of this expiry in the memory. -/
  Keeps : κ → ε → Prop
  /-- A call is compared with the tickets of this expiry. -/
  Sees : κ → ε → Prop

namespace Guard

variable {κ σ ι ε : Type}

/-- The tickets that a list of calls is let in with. -/
def admitted (G : Guard κ σ ι ε) : List κ → σ → List ι
  | [], _ => []
  | c :: cs, s =>
    (if G.passes c s = true then ((G.presents c).map Prod.fst).toList else []) ++
      G.admitted cs (G.step c s)

/-- The guard knows a ticket from when it lets the ticket in until a call lets go of it. -/
structure Remembers (G : Guard κ σ ι ε) (Knows : σ → ι → ε → Prop) : Prop where
  learn : ∀ {c s i e}, G.passes c s = true → G.presents c = some (i, e) → Knows (G.step c s) i e
  keep : ∀ {c s i e}, Knows s i e → G.Keeps c e → Knows (G.step c s) i e
  refuse : ∀ {c s i e e'}, Knows s i e → G.presents c = some (i, e') → G.Sees c e →
    G.passes c s = false

/-- A call that presents the ticket of an earlier one is compared with it, and the calls between the
two have left it in the memory; or it is not let in whatever the guard remembers. -/
def Timely (G : Guard κ σ ι ε) (cs : List κ) : Prop :=
  ∀ pre c mid c' post, cs = pre ++ c :: (mid ++ c' :: post) → ∀ i e e',
    G.presents c = some (i, e) → G.presents c' = some (i, e') →
      (∀ s, G.passes c' s = false) ∨ (∀ d ∈ mid, G.Keeps d e) ∧ G.Sees c' e

variable {G : Guard κ σ ι ε} {Knows : σ → ι → ε → Prop} {s : σ} {cs : List κ}

/-- The tickets of a history whose first call is `c`. -/
theorem mem_admitted_cons {c : κ} {i : ι} :
    i ∈ G.admitted (c :: cs) s ↔
      (G.passes c s = true ∧ ∃ e, G.presents c = some (i, e)) ∨ i ∈ G.admitted cs (G.step c s) := by
  rw [admitted, List.mem_append]
  split
  · next hpass => simp [hpass]
  · next hpass => simp [hpass]

/-- A ticket that was let in was presented by a call that can be let in. -/
theorem exists_presents {i : ι} (h : i ∈ G.admitted cs s) :
    ∃ c ∈ cs, (∃ t, G.passes c t = true) ∧ ∃ e, G.presents c = some (i, e) := by
  induction cs generalizing s with
  | nil => simp [admitted] at h
  | cons c cs ih =>
    rcases mem_admitted_cons.mp h with ⟨hpass, hpresents⟩ | hlater
    · exact ⟨c, List.mem_cons_self, ⟨s, hpass⟩, hpresents⟩
    · obtain ⟨c', hc', hpresents⟩ := ih hlater
      exact ⟨c', List.mem_cons_of_mem c hc', hpresents⟩

/-- What follows timely calls is timely. -/
theorem Timely.tail {c : κ} (h : G.Timely (c :: cs)) : G.Timely cs := by
  intro pre x mid y post hcs
  exact h (c :: pre) x mid y post (by rw [hcs]; rfl)

/-- A ticket that the guard knows is not let in by calls that it is compared with. -/
theorem Remembers.not_mem_admitted (h : G.Remembers Knows) {i : ι} {e : ε} (hs : Knows s i e)
    (hcs : ∀ mid c' post, cs = mid ++ c' :: post → ∀ e', G.presents c' = some (i, e') →
      (∀ t, G.passes c' t = false) ∨ (∀ d ∈ mid, G.Keeps d e) ∧ G.Sees c' e) :
    i ∉ G.admitted cs s := by
  -- The first call that presents the ticket is refused; so the guard must know it until there.
  induction cs generalizing s with
  | nil => simp [admitted]
  | cons c cs ih =>
    intro hmem
    rcases mem_admitted_cons.mp hmem with ⟨hpass, e', hpresents⟩ | hlater
    · have hrefused : G.passes c s = false := by
        rcases hcs [] c cs rfl e' hpresents with hshut | ⟨-, hsees⟩
        · exact hshut s
        · exact h.refuse hs hpresents hsees
      rw [hrefused] at hpass
      cases hpass
    · by_cases hkeep : G.Keeps c e
      · refine ih (h.keep hs hkeep) (fun mid c' post hsplit e' hpresents => ?_) hlater
        rcases hcs (c :: mid) c' post (by rw [hsplit]; rfl) e' hpresents with hshut | ⟨hmid, hsees⟩
        · exact .inl hshut
        · exact .inr ⟨fun d hd => hmid d (List.mem_cons_of_mem c hd), hsees⟩
      · -- The call lets go of the ticket, so nobody can be let in with it any more.
        obtain ⟨c', hc', ⟨t, hpass⟩, e', hpresents⟩ := exists_presents hlater
        obtain ⟨mid, post, hsplit⟩ := List.append_of_mem hc'
        rcases hcs (c :: mid) c' post (by rw [hsplit]; rfl) e' hpresents with hshut | ⟨hmid, -⟩
        · rw [hshut t] at hpass
          cases hpass
        · exact hkeep (hmid c List.mem_cons_self)

/-- **No ticket is let in twice** by a history that is timely. -/
theorem Remembers.nodup_admitted (h : G.Remembers Knows) (hcs : G.Timely cs) :
    (G.admitted cs s).Nodup := by
  induction cs generalizing s with
  | nil => exact List.nodup_nil
  | cons c cs ih =>
    have htail : (G.admitted cs (G.step c s)).Nodup := ih hcs.tail
    rw [admitted]
    split
    · next hpass =>
      rcases hpresents : G.presents c with _ | ⟨i, e⟩
      · exact htail
      · have hfresh : i ∉ G.admitted cs (G.step c s) := by
          refine h.not_mem_admitted (h.learn hpass hpresents) fun mid c' post hsplit e' hc' => ?_
          exact hcs [] c mid c' post (by rw [hsplit]; rfl) i e e' hpresents hc'
        exact List.nodup_cons.mpr ⟨hfresh, htail⟩
    · exact htail

end Guard

end LedgerSync.Lib
