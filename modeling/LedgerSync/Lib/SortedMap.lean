import Mathlib.Data.List.Induction
import Mathlib.Order.Lattice

/-!
# Maps as sorted lists of entries

A finite map is kept as the list of its entries in the strict order of their keys, so that equal
maps are equal lists. Inserting entries one after another builds a map; inserting the entries of a
map in their order builds the map itself (`insertAll_entries`).
-/

namespace LedgerSync.Lib

/-- A finite map; its entries are in the order of their keys. -/
structure SortedMap (κ α : Type) [LinearOrder κ] where
  entries : List (κ × α)
  sorted : entries.Pairwise fun x y => x.1 < y.1

namespace SortedMap

variable {κ α β ε : Type} [LinearOrder κ]

/-- Maps with the same entries are the same. -/
@[ext]
theorem ext {m m' : SortedMap κ α} (h : m.entries = m'.entries) : m = m' := by
  cases m
  cases m'
  congr

/-- The map without entries. -/
def empty : SortedMap κ α := ⟨[], .nil⟩

/-- The map with one entry. -/
def singleton (k : κ) (a : α) : SortedMap κ α := ⟨[(k, a)], List.pairwise_singleton _ _⟩

/-- The map with its values replaced under the same keys. -/
def mapValues (g : α → β) (m : SortedMap κ α) : SortedMap κ β where
  entries := m.entries.map fun x => (x.1, g x.2)
  sorted := List.pairwise_map.mpr m.sorted

/-- The entries of a mapped map are the mapped entries. -/
@[simp]
theorem entries_mapValues (g : α → β) (m : SortedMap κ α) :
    (m.mapValues g).entries = m.entries.map fun x => (x.1, g x.2) := rfl

/-- The map with one more entry, or with another value for a key that it has. -/
def insert (m : SortedMap κ α) (k : κ) (a : α) : SortedMap κ α where
  entries := m.entries.filter (·.1 < k) ++ (k, a) :: m.entries.filter (k < ·.1)
  sorted := by
    have hbelow : ∀ x ∈ m.entries.filter (·.1 < k), x.1 < k := fun x hx =>
      of_decide_eq_true (List.mem_filter.mp hx).2
    have habove : ∀ x ∈ m.entries.filter (k < ·.1), k < x.1 := fun x hx =>
      of_decide_eq_true (List.mem_filter.mp hx).2
    refine List.pairwise_append.mpr ⟨m.sorted.filter _, ?_, fun x hx y hy => ?_⟩
    · exact List.pairwise_cons.mpr ⟨habove, m.sorted.filter _⟩
    · rcases List.mem_cons.mp hy with rfl | hy
      · exact hbelow x hx
      · exact lt_trans (hbelow x hx) (habove y hy)

/-- An entry after an insertion is the new one, or it was there. -/
theorem mem_insert {m : SortedMap κ α} {k : κ} {a : α} {x : κ × α}
    (h : x ∈ (m.insert k a).entries) : x = (k, a) ∨ x ∈ m.entries := by
  rcases List.mem_append.mp h with h | h
  · exact .inr (List.mem_filter.mp h).1
  · rcases List.mem_cons.mp h with rfl | h
    · exact .inl rfl
    · exact .inr (List.mem_filter.mp h).1

/-- An entry above all others goes to the end. -/
theorem entries_insert_of_above {m : SortedMap κ α} {k : κ} (a : α)
    (h : ∀ x ∈ m.entries, x.1 < k) : (m.insert k a).entries = m.entries ++ [(k, a)] := by
  have hbelow : m.entries.filter (·.1 < k) = m.entries :=
    List.filter_eq_self.mpr fun x hx => decide_eq_true (h x hx)
  have habove : m.entries.filter (k < ·.1) = [] :=
    List.filter_eq_nil_iff.mpr fun x hx hk => lt_asymm (h x hx) (of_decide_eq_true hk)
  unfold insert
  dsimp only
  rw [hbelow, habove]

section Keyed

variable {f : κ → α → Option β} {x : κ × α} {l : List (κ × α)} {r : List (κ × β)}

omit [LinearOrder κ] in
/-- Computing a value from each entry under its key. -/
theorem mapM_cons_eq_some :
    (x :: l).mapM (fun x => (f x.1 x.2).map fun b => (x.1, b)) = some r ↔
      ∃ b ys, f x.1 x.2 = some b ∧ l.mapM (fun x => (f x.1 x.2).map fun b => (x.1, b)) = some ys ∧
        r = (x.1, b) :: ys := by
  rw [List.mapM_cons]
  rcases hx : f x.1 x.2 with _ | b
  · simp
  · rcases hl : l.mapM (fun x => (f x.1 x.2).map fun b => (x.1, b)) with _ | ys
    · simp [hl]
    · simp [hl, eq_comm]

omit [LinearOrder κ] in
/-- The keys stay. -/
theorem keys_of_mapM (h : l.mapM (fun x => (f x.1 x.2).map fun b => (x.1, b)) = some r) :
    r.map Prod.fst = l.map Prod.fst := by
  induction l generalizing r with
  | nil =>
    rw [← Option.some.inj h]
    rfl
  | cons x l ih =>
    obtain ⟨b, ys, -, hl, rfl⟩ := mapM_cons_eq_some.mp h
    rw [List.map_cons, List.map_cons, ih hl]

omit [LinearOrder κ] in
/-- A value is computed from every entry. -/
theorem exists_of_mapM (h : l.mapM (fun x => (f x.1 x.2).map fun b => (x.1, b)) = some r) :
    ∀ x ∈ l, ∃ b, f x.1 x.2 = some b ∧ (x.1, b) ∈ r := by
  induction l generalizing r with
  | nil => simp
  | cons x l ih =>
    obtain ⟨b, ys, hb, hl, rfl⟩ := mapM_cons_eq_some.mp h
    intro y hy
    rcases List.mem_cons.mp hy with rfl | hy
    · exact ⟨b, hb, List.mem_cons_self⟩
    · obtain ⟨c, hc, hmem⟩ := ih hl y hy
      exact ⟨c, hc, List.mem_cons_of_mem _ hmem⟩

omit [LinearOrder κ] in
/-- Every value is computed from an entry. -/
theorem of_mem_mapM (h : l.mapM (fun x => (f x.1 x.2).map fun b => (x.1, b)) = some r) :
    ∀ y ∈ r, ∃ a, (y.1, a) ∈ l ∧ f y.1 a = some y.2 := by
  induction l generalizing r with
  | nil =>
    rw [← Option.some.inj h]
    simp
  | cons x l ih =>
    obtain ⟨b, ys, hb, hl, rfl⟩ := mapM_cons_eq_some.mp h
    intro y hy
    rcases List.mem_cons.mp hy with rfl | hy
    · exact ⟨x.2, List.mem_cons_self, hb⟩
    · obtain ⟨a, ha, hfa⟩ := ih hl y hy
      exact ⟨a, List.mem_cons_of_mem _ ha, hfa⟩

end Keyed

/-- Insert decoded entries one after another. -/
def insertAll (f : α → Except ε β) (m : SortedMap κ β) (l : List (κ × α)) :
    Except ε (SortedMap κ β) :=
  l.foldlM (fun m x => do
    let b ← f x.2
    pure (m.insert x.1 b)) m

/-- Every value that is inserted was decoded. -/
theorem forall_of_insertAll {f : α → Except ε β} {P : β → Prop} (hf : ∀ a b, f a = .ok b → P b)
    {l : List (κ × α)} {m m' : SortedMap κ β} (hm : ∀ x ∈ m.entries, P x.2)
    (h : insertAll f m l = .ok m') : ∀ x ∈ m'.entries, P x.2 := by
  induction l generalizing m with
  | nil =>
    obtain rfl := Except.ok.inj h
    exact hm
  | cons e l ih =>
    unfold insertAll at h
    rw [List.foldlM_cons] at h
    rcases hb : f e.2 with err | b
    · rw [hb] at h
      cases h
    · rw [hb] at h
      refine ih (fun x hx => ?_) h
      rcases mem_insert hx with rfl | hold
      · exact hf e.2 b hb
      · exact hm x hold

/-- Decoding the encoded entries of a map in their order gives the map of the decoded values. -/
theorem insertAll_entries {γ : Type} {f : α → Except ε β} {g : γ → α} {k : γ → β}
    (m : SortedMap κ γ) (h : ∀ x ∈ m.entries, f (g x.2) = .ok (k x.2)) :
    insertAll f empty (m.entries.map fun x => (x.1, g x.2)) = .ok (m.mapValues k) := by
  obtain ⟨l, hl⟩ := m
  dsimp only at h ⊢
  induction l using List.reverseRecOn with
  | nil => rfl
  | append_singleton l x ih =>
    obtain ⟨hsorted, -, habove⟩ := List.pairwise_append.mp hl
    have hrest := ih hsorted fun y hy => h y (List.mem_append_left _ hy)
    have hlast := h x (List.mem_append_right _ List.mem_cons_self)
    -- The key that is added lies above all others.
    have habove' : ∀ y ∈ (mapValues k ⟨l, hsorted⟩).entries, y.1 < x.1 := by
      intro y hy
      obtain ⟨z, hz, rfl⟩ := List.mem_map.mp hy
      exact habove z hz x List.mem_cons_self
    have hinsert : insert (mapValues k ⟨l, hsorted⟩) x.1 (k x.2) = mapValues k ⟨l ++ [x], hl⟩ := by
      refine ext ?_
      rw [entries_insert_of_above _ habove']
      rw [entries_mapValues, entries_mapValues, List.map_append]
      rfl
    unfold insertAll at hrest ⊢
    rw [List.map_append, List.foldlM_append, hrest, ← hinsert]
    change (f (g x.2) >>= fun b => pure (insert (mapValues k ⟨l, hsorted⟩) x.1 b)) >>= pure = _
    rw [hlast]
    rfl

/-- The value of a key. -/
def get? (m : SortedMap κ α) (k : κ) : Option α := m.entries.lookup k

/-- Insert the values that are computed from the entries of a map, one after another. -/
def traverse (f : κ → α → Option β) (m : SortedMap κ α) : Option (SortedMap κ β) :=
  m.entries.foldlM (fun acc x => (f x.1 x.2).map (acc.insert x.1)) empty

/-- What is computed from an entry stands under its key. -/
theorem traverse_eq_some_iff {f : κ → α → Option β} {m : SortedMap κ α} {r : SortedMap κ β} :
    m.traverse f = some r ↔
      m.entries.mapM (fun x => (f x.1 x.2).map fun b => (x.1, b)) = some r.entries := by
  obtain ⟨l, hl⟩ := m
  unfold traverse
  dsimp only
  induction l using List.reverseRecOn generalizing r with
  | nil =>
    constructor
    · intro h
      rw [← Option.some.inj h]
      rfl
    · intro h
      exact congrArg some (ext (Option.some.inj h))
  | append_singleton l x ih =>
    obtain ⟨hsorted, -, habove⟩ := List.pairwise_append.mp hl
    rw [List.foldlM_append, List.mapM_append]
    rcases hrest : l.foldlM (fun acc y => (f y.1 y.2).map (acc.insert y.1)) empty with _ | acc
    -- Where the fold fails, so does the map, or its rows would make a sorted map.
    · have hnone : l.mapM (fun y => (f y.1 y.2).map fun b => (y.1, b)) = none := by
        rcases hmap : l.mapM (fun y => (f y.1 y.2).map fun b => (y.1, b)) with _ | ys
        · exact hmap
        · have hkeys := keys_of_mapM hmap
          have hys : ys.Pairwise fun y z => y.1 < z.1 := by
            rw [← List.pairwise_map (f := Prod.fst), hkeys, List.pairwise_map]
            exact hsorted
          have hsome := (ih hsorted (r := ⟨ys, hys⟩)).mpr hmap
          rw [hrest] at hsome
          cases hsome
      rw [hrest, hnone]
      simp
    · have hmap := (ih hsorted).mp hrest
      -- The keys of the fold are those of the list.
      have hbelow : ∀ y ∈ acc.entries, y.1 < x.1 := by
        intro y hy
        have hmem : y.1 ∈ l.map Prod.fst := by
          rw [← keys_of_mapM hmap]
          exact List.mem_map_of_mem hy
        obtain ⟨z, hz, hzy⟩ := List.mem_map.mp hmem
        rw [← hzy]
        exact habove z hz x List.mem_cons_self
      rw [hrest, hmap]
      rcases hx : f x.1 x.2 with _ | b
      · simp [hx]
      · have hinsert := entries_insert_of_above b hbelow
        simp only [List.foldlM_cons, List.foldlM_nil, List.mapM_cons, List.mapM_nil, hx,
          Option.map_some, Option.bind_eq_bind, Option.bind_some, Option.pure_def,
          Option.some.injEq, ← hinsert]
        exact ⟨fun h => congrArg entries h, fun h => ext h⟩

/-- A map is kept exactly when each of its values is. -/
theorem traverse_self_iff {f : κ → α → Option α} {m : SortedMap κ α} :
    m.traverse f = some m ↔ ∀ x ∈ m.entries, f x.1 x.2 = some x.2 := by
  rw [traverse_eq_some_iff]
  induction m.entries with
  | nil => simp
  | cons x l ih =>
    rw [mapM_cons_eq_some, List.forall_mem_cons, ← ih]
    constructor
    · rintro ⟨b, ys, hb, hl, h⟩
      obtain ⟨hx, rfl⟩ := List.cons.inj h
      exact ⟨by rw [hb, hx], hl⟩
    · rintro ⟨hx, hl⟩
      exact ⟨x.2, l, hx, hl, rfl⟩

/-- A map is that of its own values. -/
@[simp]
theorem mapValues_id (m : SortedMap κ α) : m.mapValues (fun a => a) = m :=
  ext (List.map_id _)

end SortedMap

end LedgerSync.Lib
