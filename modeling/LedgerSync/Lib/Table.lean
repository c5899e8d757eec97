import Mathlib.Algebra.BigOperators.Group.List.Basic
import Mathlib.Algebra.Order.BigOperators.Group.Finset
import Mathlib.Algebra.Order.BigOperators.Group.List
import Mathlib.Data.List.Nodup
import Mathlib.Tactic.Abel

/-!
# Tables with a primary key

A table is a list of rows whose keys are pairwise different, newest row first. The structure
carries that fact, so a table with a repeated key cannot be built: `insert?` gives no table when
the key is taken, and `update` asks that the new row keep its key.

`find?` reads by key, and `total` adds a quantity up over all rows. The lemmas say what each write
does to both, which is all that the proofs about a table need.
-/

namespace LedgerSync.Lib

/-- Rows that could all be made are the list of what each is made to. -/
theorem map_eq_of_mapM {α β : Type} {f : α → Option β} {l : List α} {r : List β}
    (h : l.mapM f = some r) : l.map f = r.map some := by
  induction l generalizing r with
  | nil =>
    cases h
    rfl
  | cons x l ih =>
    simp only [List.mapM_cons, Option.bind_eq_bind, Option.bind_eq_some_iff, Option.pure_def,
      Option.some.injEq] at h
    obtain ⟨y, hy, rs, hrs, rfl⟩ := h
    rw [List.map_cons, List.map_cons, hy, ih hrs]

/-- A table whose rows are identified by `key`. -/
structure Table {ρ κ : Type} (key : ρ → κ) where
  /-- The rows, newest first. -/
  rows : List ρ
  /-- No two rows have the same key. -/
  nodup : (rows.map key).Nodup

namespace Table

variable {ρ κ : Type} {key : ρ → κ}

/-- Tables with the same rows are the same. -/
@[ext]
theorem ext {t u : Table key} (h : t.rows = u.rows) : t = u := by
  cases t
  cases u
  congr

/-- A row is in a table when it is one of its rows. -/
instance : Membership ρ (Table key) := ⟨fun t r => r ∈ t.rows⟩

/-- Membership is that of the list of rows. -/
theorem mem_def {t : Table key} {r : ρ} : r ∈ t ↔ r ∈ t.rows := Iff.rfl

/-- The table without rows. -/
def empty : Table key := ⟨[], List.nodup_nil⟩

/-- A table without rows. -/
instance : Inhabited (Table key) := ⟨empty⟩

/-- Two rows of a table with one key are one row. -/
theorem eq_of_key {t : Table key} {r r' : ρ} (h : r ∈ t) (h' : r' ∈ t)
    (hk : key r = key r') : r = r' :=
  List.inj_on_of_nodup_map t.nodup h h' hk

section Lookup

variable [DecidableEq κ]

/-- The row with a given key. -/
def find? (t : Table key) (k : κ) : Option ρ := t.rows.find? (fun r => key r = k)

/-- Reading by key gives the row of the table that has it. -/
theorem find?_eq_some {t : Table key} {k : κ} {r : ρ} :
    t.find? k = some r ↔ r ∈ t ∧ key r = k := by
  have hsound : ∀ {x}, t.find? k = some x → x ∈ t ∧ key x = k := fun h =>
    ⟨List.mem_of_find?_eq_some h, by simpa using List.find?_some h⟩
  refine ⟨hsound, fun ⟨hr, hk⟩ => ?_⟩
  -- Some row is found, and it is the only one with that key.
  have hfound : (t.find? k).isSome := List.find?_isSome.mpr ⟨r, hr, by simpa using hk⟩
  obtain ⟨x, hx⟩ := Option.isSome_iff_exists.mp hfound
  rw [hx, eq_of_key (hsound hx).1 hr ((hsound hx).2.trans hk.symm)]

/-- A key is free when no row has it. -/
theorem find?_eq_none {t : Table key} {k : κ} :
    t.find? k = none ↔ ∀ r ∈ t, key r ≠ k := by
  simp [find?, mem_def]

/-- What a look-up finds is a row. -/
theorem mem_of_find? {t : Table key} {k : κ} {r : ρ} (h : t.find? k = some r) : r ∈ t :=
  (find?_eq_some.mp h).1

/-- What a look-up finds has the key. -/
theorem key_of_find? {t : Table key} {k : κ} {r : ρ} (h : t.find? k = some r) : key r = k :=
  (find?_eq_some.mp h).2

end Lookup

/-! ## Insertion -/

section Insert

variable [DecidableEq κ]

/-- The table with one more row, unless its key is taken. -/
def insert? (t : Table key) (r : ρ) : Option (Table key) :=
  if h : key r ∈ t.rows.map key then none
  else some ⟨r :: t.rows, by simpa using ⟨by simpa using h, t.nodup⟩⟩

/-- A row can be inserted when its key is free, and then it is the first. -/
theorem insert?_eq_some {t t' : Table key} {r : ρ} :
    t.insert? r = some t' ↔ t.find? (key r) = none ∧ t'.rows = r :: t.rows := by
  unfold insert?
  split_ifs with h
  · constructor
    · simp
    · rintro ⟨hnone, -⟩
      obtain ⟨r', hr', hk⟩ := List.mem_map.mp h
      exact absurd hk (find?_eq_none.mp hnone r' hr')
  · constructor
    · intro ht
      cases ht
      refine ⟨find?_eq_none.mpr fun r' hr' hk => h (List.mem_map.mpr ⟨r', hr', hk⟩), rfl⟩
    · rintro ⟨-, ht⟩
      exact congrArg some (ext ht.symm)

variable {t t' : Table key} {r : ρ}

/-- A row whose key is free can be inserted. -/
theorem exists_insert? (h : t.find? (key r) = none) : ∃ t', t.insert? r = some t' := by
  unfold insert?
  split_ifs with hmem
  · obtain ⟨x, hx, hk⟩ := List.mem_map.mp hmem
    exact absurd hk (find?_eq_none.mp h x hx)
  · exact ⟨_, rfl⟩

/-- A row of a grown table is the new row or an old one. -/
theorem mem_insert? (h : t.insert? r = some t') {x : ρ} : x ∈ t' ↔ x = r ∨ x ∈ t := by
  rw [mem_def, (insert?_eq_some.mp h).2, List.mem_cons, mem_def]

/-- After an insertion the new key has the new row, and the other keys have what they had. -/
theorem find?_insert? (h : t.insert? r = some t') (k : κ) :
    t'.find? k = if k = key r then some r else t.find? k := by
  unfold find?
  rw [(insert?_eq_some.mp h).2, List.find?_cons]
  by_cases hk : key r = k
  · simp [hk]
  · simp [hk, Ne.symm hk]

/-- The new row is read back. -/
theorem find?_insert?_self (h : t.insert? r = some t') {k : κ} (hk : key r = k) :
    t'.find? k = some r := by
  rw [find?_insert? h, if_pos hk.symm]

/-- Rows that were there stay readable. -/
theorem find?_insert?_of_some (h : t.insert? r = some t') {k : κ} {x : ρ}
    (hx : t.find? k = some x) : t'.find? k = some x := by
  rw [find?_insert? h, if_neg, hx]
  rintro rfl
  rw [(insert?_eq_some.mp h).1] at hx
  simp at hx

/-- Every other row is read as before. -/
theorem find?_insert?_ne (h : t.insert? r = some t') {k : κ} (hk : k ≠ key r) :
    t'.find? k = t.find? k := by
  rw [find?_insert? h, if_neg hk]

/-- The table with a list of new rows, unless one of their keys is taken. -/
def insertAll? (t : Table key) : List ρ → Option (Table key)
  | [] => some t
  | r :: rs => (t.insert? r).bind fun t' => t'.insertAll? rs

/-- Inserting several rows is inserting the first and then the rest. -/
theorem insertAll?_cons {rs : List ρ} :
    t.insertAll? (r :: rs) = some t' ↔
      ∃ t₁, t.insert? r = some t₁ ∧ t₁.insertAll? rs = some t' := by
  simp [insertAll?, Option.bind_eq_some_iff]

/-- After inserting several rows, those and the old ones are there. -/
theorem mem_insertAll? {rs : List ρ} (h : t.insertAll? rs = some t') {x : ρ} :
    x ∈ t' ↔ x ∈ rs ∨ x ∈ t := by
  induction rs generalizing t with
  | nil =>
    cases h
    simp
  | cons y ys ih =>
    obtain ⟨t₁, h₁, h₂⟩ := insertAll?_cons.mp h
    rw [ih h₂, mem_insert? h₁, List.mem_cons]
    tauto

/-- Rows that were there stay readable. -/
theorem find?_insertAll?_of_some {rs : List ρ} (h : t.insertAll? rs = some t') {k : κ} {x : ρ}
    (hx : t.find? k = some x) : t'.find? k = some x := by
  obtain ⟨hmem, hkey⟩ := find?_eq_some.mp hx
  exact find?_eq_some.mpr ⟨(mem_insertAll? h).mpr (.inr hmem), hkey⟩

/-- Rows with new keys, each another, can be inserted. -/
theorem exists_insertAll? {rs : List ρ} (hnew : ∀ x ∈ rs, t.find? (key x) = none)
    (hdistinct : (rs.map key).Nodup) : ∃ t', t.insertAll? rs = some t' := by
  induction rs generalizing t with
  | nil => exact ⟨t, rfl⟩
  | cons y ys ih =>
    rw [List.map_cons, List.nodup_cons] at hdistinct
    obtain ⟨t₁, h₁⟩ := exists_insert? (hnew y List.mem_cons_self)
    have hnew' : ∀ x ∈ ys, t₁.find? (key x) = none := by
      intro x hx
      have hne : key x ≠ key y := by
        intro heq
        exact hdistinct.1 (heq ▸ List.mem_map_of_mem hx)
      rw [find?_insert?_ne h₁ hne]
      exact hnew x (List.mem_cons_of_mem _ hx)
    obtain ⟨t', h'⟩ := ih hnew' hdistinct.2
    exact ⟨t', insertAll?_cons.mpr ⟨t₁, h₁, h'⟩⟩

end Insert

/-! ## Updates -/

section Update

/-- Every row rewritten, none with a new key. -/
def mapRows (t : Table key) (f : ρ → ρ) (hf : ∀ r, key (f r) = key r := by intro r; rfl) :
    Table key :=
  ⟨t.rows.map f, by simpa [Function.comp_def, hf] using t.nodup⟩

/-- The rows that fail a test. -/
def delete (t : Table key) (p : ρ → Bool) : Table key :=
  ⟨t.rows.filter fun r => !p r, t.nodup.sublist (List.filter_sublist.map key)⟩

/-- The rows of a mapped table are the images of the rows. -/
theorem mem_mapRows {t : Table key} {f : ρ → ρ} {hf : ∀ r, key (f r) = key r} {x : ρ} :
    x ∈ t.mapRows f hf ↔ ∃ r ∈ t, f r = x := by
  simp [mem_def, mapRows]

/-- The rows that are left are those that were not selected. -/
theorem mem_delete {t : Table key} {p : ρ → Bool} {x : ρ} :
    x ∈ t.delete p ↔ x ∈ t ∧ p x = false := by
  simp [mem_def, delete]

variable [DecidableEq κ]

/-- A look-up in a mapped table maps what the look-up found. -/
theorem find?_mapRows {t : Table key} {f : ρ → ρ} {hf : ∀ r, key (f r) = key r} (k : κ) :
    (t.mapRows f hf).find? k = (t.find? k).map f := by
  simp only [find?, mapRows, List.find?_map]
  congr 2
  funext r
  simp [hf]

/-- The row with a given key rewritten; its key stays. -/
def update (t : Table key) (k : κ) (f : ρ → ρ)
    (hf : ∀ r, key r = k → key (f r) = k := by intro r h; exact h) : Table key :=
  t.mapRows (fun r => if key r = k then f r else r)
    (by intro r; split_ifs with h <;> simp [hf, h])

/-- The row with the key of `r` exchanged for `r`. -/
def replace (t : Table key) (r : ρ) : Table key := t.update (key r) (fun _ => r) (fun _ _ => rfl)

variable {t : Table key} {k : κ} {f : ρ → ρ} {hf : ∀ r, key r = k → key (f r) = k}

/-- An update changes what is found under its key and nothing else. -/
theorem find?_update (j : κ) :
    (t.update k f hf).find? j = if j = k then (t.find? k).map f else t.find? j := by
  rw [update, find?_mapRows]
  rcases hj : t.find? j with _ | r
  · by_cases h : j = k
    · subst h
      simp [hj]
    · simp [h]
  · have hr := key_of_find? hj
    by_cases h : j = k
    · subst h
      simp [hj, hr]
    · simp [h, hr]

/-- Under its key an update maps what was found. -/
@[simp]
theorem find?_update_self : (t.update k f hf).find? k = (t.find? k).map f := by
  rw [find?_update, if_pos rfl]

/-- Under another key an update changes nothing. -/
theorem find?_update_ne {j : κ} (h : j ≠ k) : (t.update k f hf).find? j = t.find? j := by
  rw [find?_update, if_neg h]

/-- The rows of an updated table are the old ones, the one under the key mapped. -/
theorem mem_update {x : ρ} :
    x ∈ t.update k f hf ↔ ∃ r ∈ t, (if key r = k then f r else r) = x :=
  mem_mapRows

/-- Writing a new row and rewriting it is writing the rewritten row. -/
theorem update_insert? {t' : Table key} {r : ρ} {hf : ∀ x, key x = key r → key (f x) = key r}
    (h : t.insert? r = some t') : t.insert? (f r) = some (t'.update (key r) f hf) := by
  obtain ⟨hnone, hrows⟩ := insert?_eq_some.mp h
  rw [insert?_eq_some, hf r rfl]
  refine ⟨hnone, ?_⟩
  change t'.rows.map _ = _
  rw [hrows, List.map_cons, if_pos rfl]
  congr 1
  rw [List.map_congr_left (g := id), List.map_id]
  intro x hx
  simp [find?_eq_none.mp hnone x hx]

/-- Writing a new row and exchanging it is writing the row that it was exchanged for. -/
theorem insert?_replace {t' : Table key} {r r' : ρ} (h : t.insert? r = some t')
    (hk : key r' = key r) : t.insert? r' = some (t'.replace r') := by
  have hkey : ∀ x, key x = key r → key r' = key r := fun _ _ => hk
  have hins : t.insert? r' = some (t'.update (key r) (fun _ => r') hkey) :=
    update_insert? (f := fun _ => r') h
  rw [hins, Option.some.injEq]
  unfold replace
  congr 1
  exact hk.symm

/-- A replacement changes what is found under the key of its row and nothing else. -/
theorem find?_replace {r : ρ} (j : κ) :
    (t.replace r).find? j = if j = key r then (t.find? j).map (fun _ => r) else t.find? j := by
  rw [replace, find?_update]
  split_ifs with h
  · rw [h]
  · rfl

/-- A row that was exchanged is read back. -/
theorem find?_replace_self {r x : ρ} {k : κ} (h : t.find? k = some x) (hk : key r = k) :
    (t.replace r).find? k = some r := by
  rw [find?_replace, if_pos hk.symm, h]
  rfl

/-- Every other row is read as before. -/
theorem find?_replace_ne {r : ρ} {k : κ} (hk : k ≠ key r) : (t.replace r).find? k = t.find? k := by
  rw [find?_replace, if_neg hk]

/-- A row of the table afterwards is the replacement, or an old row with another key. -/
theorem mem_replace {r x : ρ} (h : x ∈ t.replace r) : x = r ∨ x ∈ t ∧ key x ≠ key r := by
  obtain ⟨y, hy, rfl⟩ := mem_update.mp h
  split_ifs with hk
  · exact .inl rfl
  · exact .inr ⟨hy, hk⟩

end Update

/-! ## Totals -/

section Total

variable {M : Type}

/-- A quantity added up over the rows. -/
def total [AddCommMonoid M] (t : Table key) (g : ρ → M) : M := (t.rows.map g).sum

/-- An empty table adds up to zero. -/
@[simp]
theorem total_empty [AddCommMonoid M] (g : ρ → M) : (empty : Table key).total g = 0 := rfl

/-- Two quantities that agree on the rows have one total. -/
theorem total_congr [AddCommMonoid M] {t : Table key} {g g' : ρ → M} (h : ∀ r ∈ t, g r = g' r) :
    t.total g = t.total g' := by
  unfold total
  rw [List.map_congr_left h]

/-- Rows that count zero add up to zero. -/
theorem total_eq_zero [AddCommMonoid M] {t : Table key} {g : ρ → M} (h : ∀ r ∈ t, g r = 0) :
    t.total g = 0 := by
  rw [total_congr h]
  simp [total]

/-- A total of sums is the sum of the totals. -/
theorem total_add [AddCommMonoid M] (t : Table key) (g g' : ρ → M) :
    t.total (fun r => g r + g' r) = t.total g + t.total g' :=
  List.sum_map_add

/-- The total over the rows that pass a test. -/
theorem sum_filter [AddCommMonoid M] (t : Table key) (p : ρ → Bool) (g : ρ → M) :
    ((t.rows.filter p).map g).sum = t.total fun r => if p r then g r else 0 := by
  unfold total
  induction t.rows with
  | nil => rfl
  | cons x l ih =>
    by_cases h : p x <;> simp [h, ih]

/-- An insertion adds what its row counts. -/
theorem total_insert? [DecidableEq κ] [AddCommMonoid M] {t t' : Table key} {r : ρ}
    (h : t.insert? r = some t') (g : ρ → M) : t'.total g = g r + t.total g := by
  rw [total, (insert?_eq_some.mp h).2, List.map_cons, List.sum_cons, total]

/-- The total of a mapped table is the total of the mapped rows. -/
theorem total_mapRows [AddCommMonoid M] {t : Table key} {f : ρ → ρ}
    {hf : ∀ r, key (f r) = key r} (g : ρ → M) :
    (t.mapRows f hf).total g = t.total (fun r => g (f r)) := by
  simp [total, mapRows, Function.comp_def]

/-- A total is a sum over the keys. -/
theorem total_eq_sum_keys [DecidableEq κ] [AddCommMonoid M] (t : Table key) (g : ρ → M) :
    t.total g = ∑ k ∈ (t.rows.map key).toFinset, ((t.find? k).map g).getD 0 := by
  rw [List.sum_toFinset _ t.nodup, List.map_map, total]
  congr 1
  refine List.map_congr_left fun r hr => ?_
  rw [Function.comp_apply, find?_eq_some.mpr ⟨hr, rfl⟩]
  rfl

variable [AddCommGroup M]

/-- What is deleted and what stays add up to what there was. -/
theorem total_delete {t : Table key} (p : ρ → Bool) (g : ρ → M) :
    (t.delete p).total g = t.total g - t.total (fun r => if p r then g r else 0) := by
  change ((t.rows.filter fun r => !p r).map g).sum = (t.rows.map g).sum - _
  unfold total
  induction t.rows with
  | nil => simp
  | cons x l ih =>
    cases h : p x
    · simp only [List.filter_cons, h, Bool.not_false, if_true, List.map_cons, List.sum_cons, ih]
      simp only [Bool.false_eq_true, if_false]
      abel
    · simp only [List.filter_cons, h, Bool.not_true, Bool.false_eq_true, if_false, if_true,
        List.map_cons, List.sum_cons, ih]
      abel

/-- Rewriting one row changes a total by the change of that row. -/
theorem total_update [DecidableEq κ] {t : Table key} {k : κ} {f : ρ → ρ}
    {hf : ∀ r, key r = k → key (f r) = k} {r : ρ} (h : t.find? k = some r) (g : ρ → M) :
    (t.update k f hf).total g = t.total g + (g (f r) - g r) := by
  obtain ⟨hr, hk⟩ := find?_eq_some.mp h
  obtain ⟨l₁, l₂, hl⟩ := List.append_of_mem (mem_def.mp hr)
  have hnd := t.nodup
  -- Every other row has another key, so the rewriting leaves it.
  have hother : ∀ x ∈ l₁ ++ l₂, key x ≠ k := by
    intro x hx hxk
    rw [hl, List.map_append, List.map_cons, List.nodup_middle, List.nodup_cons] at hnd
    apply hnd.1
    rw [← List.map_append, hk, ← hxk]
    exact List.mem_map_of_mem hx
  have hmap : ∀ l : List ρ, (∀ x ∈ l, key x ≠ k) →
      l.map (fun x => g (if key x = k then f x else x)) = l.map g := by
    intro l hlk
    apply List.map_congr_left
    intro x hx
    rw [if_neg (hlk x hx)]
  rw [update, total_mapRows, total, total, hl, List.map_append, List.map_cons, List.map_append,
    List.map_cons, hmap l₁ fun x hx => hother x (List.mem_append_left _ hx),
    hmap l₂ fun x hx => hother x (List.mem_append_right _ hx), if_pos hk, List.sum_append,
    List.sum_append, List.sum_cons, List.sum_cons]
  abel

/-- Exchanging one row changes a total by the difference of the two rows. -/
theorem total_replace [DecidableEq κ] {t : Table key} {r x : ρ} (h : t.find? (key r) = some x)
    (g : ρ → M) : (t.replace r).total g = t.total g + (g r - g x) :=
  total_update h g

end Total

/-! ## Totals in order -/

section Order

variable {M : Type} [AddCommMonoid M] [PartialOrder M] [IsOrderedAddMonoid M] {t : Table key}

/-- A quantity that is nowhere more than another has no greater total. -/
theorem total_le_total {g g' : ρ → M} (h : ∀ r ∈ t, g r ≤ g' r) : t.total g ≤ t.total g' :=
  List.sum_le_sum h

/-- Rows that do not count below zero add up to no less. -/
theorem total_nonneg {g : ρ → M} (h : ∀ r ∈ t, 0 ≤ g r) : 0 ≤ t.total g :=
  List.sum_nonneg (by simpa [mem_def] using h)

variable [DecidableEq κ]

/-- A total is no greater than that of another table which answers every row that counts with a row
of the same key that counts at least as much. -/
theorem total_le_of_key {τ : Type} {key' : τ → κ} {u : Table key'} {g : ρ → M} {g' : τ → M}
    (hnonneg : ∀ x ∈ u, 0 ≤ g' x)
    (h : ∀ r ∈ t, g r ≠ 0 → ∃ x, u.find? (key r) = some x ∧ g r ≤ g' x) :
    t.total g ≤ u.total g' := by
  classical
  rw [total_eq_sum_keys, total_eq_sum_keys, ← Finset.sum_filter_ne_zero]
  -- Each row that counts has a partner under its key that is no smaller.
  have hrow : ∀ k ∈ ((t.rows.map key).toFinset.filter fun k => ((t.find? k).map g).getD 0 ≠ 0),
      k ∈ (u.rows.map key').toFinset ∧
        ((t.find? k).map g).getD 0 ≤ ((u.find? k).map g').getD 0 := by
    intro k hk
    have hne := (Finset.mem_filter.mp hk).2
    rcases hfind : t.find? k with _ | r
    · rw [hfind] at hne
      exact absurd rfl hne
    · obtain ⟨hr, rfl⟩ := find?_eq_some.mp hfind
      rw [hfind] at hne
      obtain ⟨x, hx, hle⟩ := h r hr hne
      rw [hx]
      exact ⟨List.mem_toFinset.mpr (List.mem_map.mpr ⟨x, find?_eq_some.mp hx⟩), hle⟩
  refine (Finset.sum_le_sum fun k hk => (hrow k hk).2).trans
    (Finset.sum_le_sum_of_subset_of_nonneg (fun k hk => (hrow k hk).1) fun k _ _ => ?_)
  rcases hfind : u.find? k with _ | x
  · exact le_refl 0
  · exact hnonneg x (mem_of_find? hfind)

end Order

end Table

end LedgerSync.Lib
