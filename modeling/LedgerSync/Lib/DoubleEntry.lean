import Mathlib.Tactic.Ring
import LedgerSync.Lib.Table

/-!
# Double entry

The position of an account says where it started (`opening`), what it holds (`ledger`), what of
that may be spent (`available`), what was posted to it (`net`) and what of it is reserved
(`reserved`). A position is balanced when the two equations between them hold, and balanced
positions are closed under addition. So a command keeps every account balanced as soon as what it
adds to each account is balanced by itself, and the three kinds of change that there are, a
posting, a reservation and an opening, all are.

`shift` is the change that moving an amount between two accounts makes to each account. What is
posted to all accounts of a class adds up over the postings (`total_fiber`).
-/

namespace LedgerSync.Lib

/-! ## Positions -/

/-- The position of one account. -/
@[ext]
structure Position where
  opening : ℤ
  ledger : ℤ
  available : ℤ
  net : ℤ
  reserved : ℤ

namespace Position

/-- Positions add up column by column. -/
instance : Add Position :=
  ⟨fun p q => ⟨p.opening + q.opening, p.ledger + q.ledger, p.available + q.available,
    p.net + q.net, p.reserved + q.reserved⟩⟩

/-- The position of an account that nothing happened to. -/
instance : Zero Position := ⟨⟨0, 0, 0, 0, 0⟩⟩

/-- Adding nothing changes nothing. -/
protected theorem add_zero (p : Position) : p + 0 = p := by
  change (⟨p.opening + 0, p.ledger + 0, p.available + 0, p.net + 0, p.reserved + 0⟩ : Position) = p
  simp

/-- The ledger is what was posted since the opening, and what is not reserved is available. -/
structure Balanced (p : Position) : Prop where
  ledger : p.ledger = p.opening + p.net
  available : p.available = p.ledger - p.reserved

/-- An amount posted to the account. -/
def posted (z : ℤ) : Position := ⟨0, z, z, z, 0⟩

/-- An amount reserved on the account; a negative one is given back. -/
def held (z : ℤ) : Position := ⟨0, 0, -z, 0, z⟩

/-- An opening amount. -/
def opened (z : ℤ) : Position := ⟨z, z, z, 0, 0⟩

/-- Nothing is balanced. -/
theorem balanced_zero : (0 : Position).Balanced := ⟨rfl, rfl⟩

/-- Balanced positions add up to a balanced one. -/
theorem Balanced.add {p q : Position} (hp : p.Balanced) (hq : q.Balanced) : (p + q).Balanced := by
  constructor
  · change p.ledger + q.ledger = p.opening + q.opening + (p.net + q.net)
    rw [hp.ledger, hq.ledger]
    ring
  · change p.available + q.available = p.ledger + q.ledger - (p.reserved + q.reserved)
    rw [hp.available, hq.available]
    ring

/-- A posted amount is balanced. -/
theorem balanced_posted (z : ℤ) : (posted z).Balanced := ⟨by simp [posted], by simp [posted]⟩

/-- A reserved amount is balanced. -/
theorem balanced_held (z : ℤ) : (held z).Balanced := ⟨by simp [held], by simp [held]⟩

/-- An opening is balanced. -/
theorem balanced_opened (z : ℤ) : (opened z).Balanced := ⟨by simp [opened], by simp [opened]⟩

end Position

/-! ## Moving an amount -/

section Shift

variable {α : Type} [DecidableEq α]

/-- What an account gains when an amount moves from `source` to `destination`. -/
def shift (source destination : α) (z : ℤ) (x : α) : ℤ :=
  (if x = destination then z else 0) - (if x = source then z else 0)

/-- Moving an amount back is moving its negative. -/
theorem shift_swap (a b : α) (z : ℤ) (x : α) : shift a b z x = shift b a (-z) x := by
  unfold shift
  split_ifs <;> ring

/-- The source loses the amount. -/
theorem shift_source {a b : α} (h : a ≠ b) (z : ℤ) : shift a b z a = -z := by
  simp [shift, h]

/-- The destination gains the amount. -/
theorem shift_destination {a b : α} (h : a ≠ b) (z : ℤ) : shift a b z b = z := by
  simp [shift, h.symm]

/-- No other account moves. -/
theorem shift_other {a b x : α} (ha : x ≠ a) (hb : x ≠ b) (z : ℤ) : shift a b z x = 0 := by
  simp [shift, ha, hb]

end Shift

/-! ## Totals over a class of accounts -/

namespace Table

variable {ρ κ α ι : Type} {key : ρ → κ} {name : α → ι} [DecidableEq ι]

/-- One quantity, given only to the row with a key. -/
theorem total_single (u : Table name) (i : ι) (p : α → Bool) (z : ℤ) :
    u.total (fun a => if p a then (if i = name a then z else 0) else 0) =
      if (u.find? i).any p then z else 0 := by
  rcases hfind : u.find? i with _ | a
  · rw [total_eq_zero]
    · simp
    · intro a ha
      have hne : i ≠ name a := fun h => find?_eq_none.mp hfind a ha h.symm
      simp [hne]
  · obtain ⟨ha, hname⟩ := find?_eq_some.mp hfind
    obtain ⟨l₁, l₂, hl⟩ := List.append_of_mem (mem_def.mp ha)
    have hnd := u.nodup
    rw [hl, List.map_append, List.map_cons, List.nodup_middle, List.nodup_cons] at hnd
    -- Every other row has another name.
    have hzero : ∀ l : List α, (∀ b ∈ l, b ∈ l₁ ++ l₂) →
        (l.map fun b => if p b then (if i = name b then z else 0) else 0).sum = 0 := by
      intro l hlsub
      apply List.sum_eq_zero
      intro y hy
      obtain ⟨b, hb, rfl⟩ := List.mem_map.mp hy
      have hne : i ≠ name b := by
        intro h
        apply hnd.1
        rw [hname, h, ← List.map_append]
        exact List.mem_map_of_mem (hlsub b hb)
      simp [hne]
    unfold total
    rw [hl, List.map_append, List.map_cons, List.sum_append, List.sum_cons,
      hzero l₁ fun b hb => List.mem_append_left _ hb,
      hzero l₂ fun b hb => List.mem_append_right _ hb]
    simp [hname]

/-- What each account of a class is given, added up over the class, is what all rows give to
accounts of the class. -/
theorem total_fiber (u : Table name) (t : Table key) (owner : ρ → ι) (p : α → Bool) (g : ρ → ℤ) :
    u.total (fun a => if p a then t.total (fun r => if owner r = name a then g r else 0) else 0) =
      t.total fun r => if (u.find? (owner r)).any p then g r else 0 := by
  unfold total
  induction t.rows with
  | nil => simp
  | cons r rs ih =>
    have hsplit : ∀ a : α,
        (if p a then ((r :: rs).map fun r => if owner r = name a then g r else 0).sum else 0) =
          (if p a then (if owner r = name a then g r else 0) else 0) +
            (if p a then (rs.map fun r => if owner r = name a then g r else 0).sum else 0) := by
      intro a
      split_ifs <;> simp_all
    rw [List.map_congr_left fun a _ => hsplit a, List.sum_map_add, ih, List.map_cons,
      List.sum_cons]
    congr 1
    exact total_single u (owner r) p (g r)

end Table

end LedgerSync.Lib
