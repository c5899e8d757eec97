import Mathlib.Logic.Relation
import Mathlib.Data.Int.Order.Basic
import Mathlib.Tactic.Linarith

/-!
# Logical clocks

Nodes stamp their events, and an event may carry the stamp of the message that it received. A trace
is a list of such events, the oldest first; its events are told apart by their positions, not by
what they carry. One event happens before another when it is earlier at the same node, or its stamp
is the one that the other received, or by a chain of these.

`Counts` says that the nodes stamp a list of events as Lamport clocks do, from some counters to
others. `Clocked` is the invariant of a trace that is stamped so; it holds of the empty trace,
`Clocked.counts` extends it, and it gives the clock condition (`Clocked.stamp_lt`).
-/

namespace LedgerSync.Lib

/-- How the events of a trace are stamped. -/
structure Stamping (ε ν : Type*) where
  node : ε → ν
  stamp : ε → ℤ
  /-- The node and the stamp that came with the message that the event received. -/
  cause : ε → Option (ν × ℤ)

namespace Stamping

variable {ε ν : Type*} (S : Stamping ε ν)

/-- The event at position `i` is earlier at the node of the one at `j`, or sent what that one
received. -/
def Direct (es : List ε) (i j : ℕ) : Prop :=
  ∃ a b, es[i]? = some a ∧ es[j]? = some b ∧
    ((S.node a = S.node b ∧ i < j) ∨ S.cause b = some (S.node a, S.stamp a))

/-- Lamport's order of the positions of a trace. -/
def HappensBefore (es : List ε) : ℕ → ℕ → Prop :=
  Relation.TransGen (S.Direct es)

/-- The stamps of a node rise along the trace, an event has a later stamp than what it received, and
the counters have reached the stamps. -/
structure Clocked (es : List ε) (counter : ν → ℤ) : Prop where
  ordered : es.Pairwise fun a b => S.node a = S.node b → S.stamp a < S.stamp b
  caused : ∀ b ∈ es, ∀ c, S.cause b = some c → c.2 < S.stamp b
  reached : ∀ a ∈ es, S.stamp a ≤ counter (S.node a)

variable {S} {es : List ε} {counter counter' : ν → ℤ}

/-- At first no event is stamped. -/
theorem Clocked.nil : S.Clocked [] counter where
  ordered := .nil
  caused _ hb := by cases hb
  reached _ ha := by cases ha

/-- A node counts past its counter and past what it received, and stamps an event with the count. -/
structure Tick (S : Stamping ε ν) (counter : ν → ℤ) (e : ε) (counter' : ν → ℤ) : Prop where
  own : counter (S.node e) < S.stamp e
  cause : ∀ c, S.cause e = some c → c.2 < S.stamp e
  reached : S.stamp e ≤ counter' (S.node e)
  mono : ∀ n, counter n ≤ counter' n

/-- The nodes stamp a list of events, one after the other. -/
inductive Counts (S : Stamping ε ν) : (ν → ℤ) → List ε → (ν → ℤ) → Prop
  | nil {counter : ν → ℤ} : Counts S counter [] counter
  | cons {counter counter₁ counter' : ν → ℤ} {e : ε} {es : List ε} (tick : S.Tick counter e counter₁)
      (counts : Counts S counter₁ es counter') : Counts S counter (e :: es) counter'

/-- A tick counts its event. -/
theorem Tick.counts {e : ε} (h : S.Tick counter e counter') : S.Counts counter [e] counter' :=
  .cons h .nil

/-- Counts compose. -/
theorem Counts.append {counter₁ : ν → ℤ} {ds : List ε} (h : S.Counts counter es counter₁)
    (h' : S.Counts counter₁ ds counter') : S.Counts counter (es ++ ds) counter' := by
  induction h with
  | nil => exact h'
  | cons htick _ ih => exact .cons htick (ih h')

/-- A counter never falls. -/
theorem Counts.mono (h : S.Counts counter es counter') (n : ν) : counter n ≤ counter' n := by
  induction h with
  | nil => exact le_refl _
  | cons htick _ ih => exact (htick.mono n).trans ih

/-- A tick keeps the events clocked. -/
theorem Clocked.tick (h : S.Clocked es counter) {e : ε} (ht : S.Tick counter e counter') :
    S.Clocked (es ++ [e]) counter' where
  ordered := by
    rw [List.pairwise_append]
    -- The new event lies above all earlier ones of its node.
    refine ⟨h.ordered, List.pairwise_singleton _ _, fun a ha b hb hnode => ?_⟩
    rw [List.mem_singleton] at hb
    subst hb
    have hreached := h.reached a ha
    rw [hnode] at hreached
    exact hreached.trans_lt ht.own
  caused b hb c hc := by
    rcases List.mem_append.mp hb with hb | hb
    · exact h.caused b hb c hc
    · rw [List.mem_singleton] at hb
      subst hb
      exact ht.cause c hc
  reached a ha := by
    rcases List.mem_append.mp ha with ha | ha
    · exact (h.reached a ha).trans (ht.mono _)
    · rw [List.mem_singleton] at ha
      subst ha
      exact ht.reached

/-- Counted events keep the events clocked. -/
theorem Clocked.counts {ds : List ε} (h : S.Clocked es counter) (hc : S.Counts counter ds counter') :
    S.Clocked (es ++ ds) counter' := by
  induction hc generalizing es with
  | nil =>
    rw [List.append_nil]
    exact h
  | cons htick _ ih =>
    have hnext := ih (h.tick htick)
    rwa [List.append_assoc] at hnext

/-- An event is stamped after every one that happened directly before it. -/
theorem Clocked.direct_lt (h : S.Clocked es counter) {i j : ℕ} (hij : S.Direct es i j)
    {a b : ε} (ha : es[i]? = some a) (hb : es[j]? = some b) : S.stamp a < S.stamp b := by
  obtain ⟨a', b', ha', hb', hedge⟩ := hij
  cases ha.symm.trans ha'
  cases hb.symm.trans hb'
  rcases hedge with ⟨hnode, hlt⟩ | hcause
  · obtain ⟨hi, rfl⟩ := List.getElem?_eq_some_iff.mp ha
    obtain ⟨hj, rfl⟩ := List.getElem?_eq_some_iff.mp hb
    exact List.pairwise_iff_getElem.mp h.ordered i j hi hj hlt hnode
  · exact h.caused b (List.mem_of_getElem? hb) _ hcause

/-- The clock condition: what happens before has the earlier stamp. -/
theorem Clocked.stamp_lt (h : S.Clocked es counter) {i j : ℕ} (hij : S.HappensBefore es i j)
    {a b : ε} (ha : es[i]? = some a) (hb : es[j]? = some b) : S.stamp a < S.stamp b := by
  induction hij generalizing b with
  | single hedge => exact h.direct_lt hedge ha hb
  | tail _ hedge ih =>
    obtain ⟨c, _, hc, -⟩ := id hedge
    exact (ih hc).trans (h.direct_lt hedge hc hb)

end Stamping

end LedgerSync.Lib
