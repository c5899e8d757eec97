import LedgerSync.Lib.Table

/-!
# Batches of a table

A worker that takes rows from a table takes at most so many of those that pass a test, in some order
(`Table.batch`). When the rows that it took are deleted, the rows that pass are exactly fewer by
what was taken (`countP_delete_batch`), so a number of batches that is not below the number of rows
takes them all. When only some of the rows that pass are wanted, a batch has as many of them as
there can be unless it takes an unwanted row and leaves a wanted one (`countP_batch_eq_min_iff`). In
a strict order a row is taken exactly when few enough rows come before it (`mem_batch_iff`).
-/

namespace LedgerSync.Lib

namespace Table

variable {ρ κ : Type} {key : ρ → κ}

/-- The first `n` rows that pass a test. -/
def batch (t : Table key) (p : ρ → Bool) (le : ρ → ρ → Bool) (n : ℕ) : List ρ :=
  ((t.rows.filter p).mergeSort le).take n

variable {t : Table key} {p q : ρ → Bool} {le : ρ → ρ → Bool} {n : ℕ}

/-- What is in a batch is in the table and was selected. -/
theorem mem_of_mem_batch {r : ρ} (h : r ∈ t.batch p le n) : r ∈ t ∧ p r = true := by
  have hmem := List.mem_mergeSort.mp (List.mem_of_mem_take h)
  exact List.mem_filter.mp hmem

/-- No row is in a table twice. -/
theorem nodup_rows (t : Table key) : t.rows.Nodup := List.Nodup.of_map key t.nodup

/-- No key is in a batch twice. -/
theorem nodup_keys_batch : ((t.batch p le n).map key).Nodup := by
  have hperm := (List.mergeSort_perm (t.rows.filter p) le).map key
  have hfilter : ((t.rows.filter p).map key).Nodup := t.nodup.sublist (List.filter_sublist.map key)
  exact (hperm.nodup_iff.mpr hfilter).sublist ((List.take_sublist _ _).map key)

/-- A batch is full, or has all rows that were selected. -/
theorem length_batch : (t.batch p le n).length = min n (t.rows.countP p) := by
  unfold batch
  rw [List.length_take, List.length_mergeSort, List.countP_eq_length_filter]

/-- Two rows are put in order by one comparison. -/
theorem mergeSort_pair (a b : ρ) : [a, b].mergeSort le = if le a b then [a, b] else [b, a] := by
  simp [List.mergeSort, List.MergeSort.Internal.splitInTwo, List.merge]

/-- Deleting a batch leaves that many rows fewer. -/
theorem countP_delete_batch [DecidableEq ρ] (hpq : ∀ r, p r = true → q r = true) :
    (t.delete fun r => r ∈ t.batch p le n).rows.countP q + (t.batch p le n).length =
      t.rows.countP q := by
  set taken := t.batch p le n
  have hnodup : taken.Nodup := List.Nodup.of_map key nodup_keys_batch
  have hperm : (t.rows.filter fun r => r ∈ taken).Perm taken := by
    refine (List.perm_ext_iff_of_nodup ((nodup_rows t).filter _) hnodup).mpr fun r => ?_
    rw [List.mem_filter, decide_eq_true_eq]
    exact ⟨fun h => h.2, fun h => ⟨(mem_of_mem_batch h).1, h⟩⟩
  -- What passes is either taken or left.
  have hsplit := List.countP_eq_countP_filter_add t.rows q fun r => decide (r ∈ taken)
  have htook : (t.rows.filter fun r => r ∈ taken).countP q = taken.length := by
    rw [hperm.countP_eq, List.countP_eq_length]
    exact fun r hr => hpq r (mem_of_mem_batch hr).2
  rw [hsplit, htook, add_comm]
  rfl

/-- The rows that pass are in the batch or behind it. -/
theorem countP_batch_add : (t.batch p le n).countP q +
    (((t.rows.filter p).mergeSort le).drop n).countP q = t.rows.countP fun r => p r && q r := by
  have hperm : ((t.rows.filter p).mergeSort le).countP q = (t.rows.filter p).countP q :=
    (List.mergeSort_perm _ _).countP_eq q
  unfold batch
  rw [← List.countP_append, List.take_append_drop, hperm, List.countP_filter]
  simp only [Bool.and_comm]

/-- A row behind the batch is one that passes and was not taken. -/
theorem mem_behind_batch {r : ρ} : r ∈ ((t.rows.filter p).mergeSort le).drop n ↔
    r ∈ t ∧ p r = true ∧ r ∉ t.batch p le n := by
  have hnodup : ((t.rows.filter p).mergeSort le).Nodup :=
    (List.mergeSort_perm _ _).nodup_iff.mpr ((nodup_rows t).filter _)
  have hmem : r ∈ (t.rows.filter p).mergeSort le ↔ r ∈ t ∧ p r = true := by
    rw [List.mem_mergeSort, List.mem_filter, mem_def]
  rw [← and_assoc, ← hmem]
  unfold batch
  rw [← List.take_append_drop n ((t.rows.filter p).mergeSort le)] at hnodup
  have hdisjoint := (List.nodup_append.mp hnodup).2.2
  constructor
  · intro h
    exact ⟨List.mem_of_mem_drop h, fun htaken => hdisjoint r htaken r h rfl⟩
  · rintro ⟨h, hnot⟩
    rw [← List.take_append_drop n ((t.rows.filter p).mergeSort le), List.mem_append] at h
    exact h.resolve_left hnot

/-- A batch has as many of the rows that are wanted as there can be, unless it takes a row that is
not wanted and leaves one that is. -/
theorem countP_batch_eq_min_iff :
    (t.batch p le n).countP q = min n (t.rows.countP fun r => p r && q r) ↔
      ¬((∃ r ∈ t.batch p le n, ¬q r = true) ∧
        ∃ r ∈ t, p r = true ∧ q r = true ∧ r ∉ t.batch p le n) := by
  have hsplit := @countP_batch_add _ _ _ t p q le n
  have hbound : (t.batch p le n).countP q ≤ (t.batch p le n).length := List.countP_le_length
  have hlength : (t.batch p le n).length = min n (t.rows.countP p) := length_batch
  by_cases hleft : ∃ r ∈ t, p r = true ∧ q r = true ∧ r ∉ t.batch p le n
  · -- The batch is full, so what counts is whether all of it is wanted.
    obtain ⟨r, hr, hp, hq, hnot⟩ := hleft
    have hbehind : r ∈ ((t.rows.filter p).mergeSort le).drop n :=
      mem_behind_batch.mpr ⟨hr, hp, hnot⟩
    have hpos : 0 < (((t.rows.filter p).mergeSort le).drop n).countP q :=
      List.countP_pos_iff.mpr ⟨r, hbehind, hq⟩
    have hfull : (t.batch p le n).length = n := by
      have hlong := List.length_pos_of_mem hbehind
      rw [List.length_drop, List.length_mergeSort, ← List.countP_eq_length_filter] at hlong
      omega
    have hall : (t.batch p le n).countP q = (t.batch p le n).length ↔
        ∀ x ∈ t.batch p le n, q x = true := List.countP_eq_length
    constructor
    · rintro heq ⟨⟨x, hx, hunwanted⟩, -⟩
      exact hunwanted (hall.mp (by omega) x hx)
    · intro hnone
      have hwanted : ∀ x ∈ t.batch p le n, q x = true := by
        intro x hx
        by_contra hunwanted
        exact hnone ⟨⟨x, hx, hunwanted⟩, r, hr, hp, hq, hnot⟩
      have hcount := hall.mpr hwanted
      omega
  · -- Nothing that is wanted is left.
    have hnone : (((t.rows.filter p).mergeSort le).drop n).countP q = 0 := by
      rw [List.countP_eq_zero]
      intro x hx hq
      obtain ⟨hmem, hp, hnot⟩ := mem_behind_batch.mp hx
      exact hleft ⟨x, hmem, hp, hq, hnot⟩
    constructor
    · rintro - ⟨-, h⟩
      exact hleft h
    · intro _
      omega

/-- In an order that leaves no two rows of the table undecided, a row that passes is in the batch
exactly when fewer than `n` rows that pass come before it. -/
theorem mem_batch_iff {before : ρ → ρ → Bool}
    (hasymm : ∀ x y, before x y = true → before y x = false)
    (hneg : ∀ x y z, before x z = true → before x y = true ∨ before y z = true)
    (htotal : ∀ x ∈ t, ∀ y ∈ t, x ≠ y → before x y = true ∨ before y x = true) {r : ρ} (hr : r ∈ t)
    (hp : p r = true) :
    r ∈ t.batch p (fun x y => !before y x) n ↔
      (t.rows.countP fun x => p x && before x r) < n := by
  unfold batch
  generalize hl : (t.rows.filter p).mergeSort (fun x y => !before y x) = l
  have hperm : l.Perm (t.rows.filter p) := hl ▸ List.mergeSort_perm _ _
  have hsorted : l.Pairwise fun x y => before y x = false := by
    have hpairwise : ((t.rows.filter p).mergeSort fun x y => !before y x).Pairwise
        fun x y => !before y x := List.pairwise_mergeSort
      (fun x y z hxy hyz => by
        simp only [Bool.not_eq_true'] at hxy hyz ⊢
        by_contra hzx
        rcases hneg z y x (Bool.not_eq_false _ ▸ hzx) with h | h
        · rw [hyz] at h
          cases h
        · rw [hxy] at h
          cases h)
      (fun x y => by
        rcases h : before y x
        · simp
        · simp [hasymm y x h])
      (t.rows.filter p)
    rw [hl] at hpairwise
    exact hpairwise.imp fun h => by simpa using h
  have hmem : r ∈ l := hperm.mem_iff.mpr (List.mem_filter.mpr ⟨hr, hp⟩)
  have hnodup : l.Nodup := hperm.nodup_iff.mpr ((nodup_rows t).filter _)
  have hcount : (t.rows.countP fun x => p x && before x r) = l.countP fun x => before x r := by
    rw [hperm.countP_eq, List.countP_filter]
    simp only [Bool.and_comm]
  rw [hcount]
  -- What stands before the row comes before it, and what stands behind it does not.
  obtain ⟨pre, post, rfl⟩ := List.append_of_mem hmem
  obtain ⟨-, htail, hcross⟩ := List.pairwise_append.mp hsorted
  have hpre : pre.countP (fun x => before x r) = pre.length := by
    refine List.countP_eq_length.mpr fun x hx => ?_
    have hxt : x ∈ t := List.mem_of_mem_filter (hperm.mem_iff.mp (List.mem_append_left _ hx))
    have hne : x ≠ r := by
      rintro rfl
      exact (List.nodup_append.mp hnodup).2.2 x hx x List.mem_cons_self rfl
    rcases htotal x hxt r hr hne with h | h
    · exact h
    · rw [hcross x hx r List.mem_cons_self] at h
      cases h
  have hpost : post.countP (fun x => before x r) = 0 := by
    refine List.countP_eq_zero.mpr fun x hx h => ?_
    rw [List.rel_of_pairwise_cons htail hx] at h
    cases h
  have hself : before r r = false := by
    rcases h : before r r
    · rfl
    · exact (hasymm r r h).symm.trans h ▸ rfl
  -- The place of the row is the number of rows before it.
  have hrank : (pre ++ r :: post).countP (fun x => before x r) = pre.length := by
    rw [List.countP_append, List.countP_cons, hpre, hpost, hself]
    simp
  have hpos : r ∉ pre := fun h => (List.nodup_append.mp hnodup).2.2 r h r List.mem_cons_self rfl
  rw [hrank, List.take_append, List.mem_append]
  constructor
  · rintro (h | h)
    · exact absurd (List.mem_of_mem_take h) hpos
    · by_contra hlt
      rw [Nat.sub_eq_zero_of_le (by omega), List.take_zero] at h
      cases h
  · intro hlt
    refine .inr ?_
    obtain ⟨k, hk⟩ : ∃ k, n - pre.length = k + 1 := ⟨n - pre.length - 1, by omega⟩
    rw [hk, List.take_succ_cons]
    exact List.mem_cons_self

end Table

end LedgerSync.Lib
