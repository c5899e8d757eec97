import Mathlib.Data.List.AList
import Mathlib.Data.List.Induction

/-!
# A map kept in step with a list of recent uses

A cache of bounded size keeps its entries in a linked list, the last used one in front, and an index
that leads from a key to its node in the list. `InStep` says that the two hold the same keys, each
of them once. Every operation that the list offers keeps them in step, and what it does to the list
is said in terms of keys (`order_remove`, `order_moveToFront`, `pushFront`). A walk from the back to
the front that removes nodes on its way loses no node and visits each one (`sweep_spec`).
`ByLastUse` says that the list is in the order of the last uses.
-/

namespace LedgerSync.Lib

/-- A node of a linked list. Nodes are told apart by their `id`, as pointers to them would. -/
structure Node (κ α : Type) where
  id : ℕ
  key : κ
  value : α

/-- An index and the list of the nodes it leads to, from the front to the back. -/
structure RecencyMap (κ α : Type) where
  index : AList fun _ : κ => ℕ
  order : List (Node κ α)
  /-- The next node that is made gets this `id`. -/
  next : ℕ

namespace RecencyMap

variable {κ α : Type}

section Operations

variable [DecidableEq κ]

/-- No entries. -/
def empty : RecencyMap κ α := ⟨∅, [], 0⟩

/-- The number of entries of the index. -/
def size (m : RecencyMap κ α) : ℕ := m.index.keys.length

/-- The node that the index has for a key. -/
def node? (m : RecencyMap κ α) (k : κ) : Option (Node κ α) :=
  (m.index.lookup k).bind fun id => m.order.find? fun e => e.id = id

/-- The node is moved in front of the others. -/
def moveToFront (m : RecencyMap κ α) (e : Node κ α) : RecencyMap κ α :=
  { m with order :=
      if m.order.any fun x => x.id = e.id then e :: m.order.filter (fun x => x.id ≠ e.id)
      else m.order }

/-- The key of the node leaves the index and the node leaves the list. -/
def remove (m : RecencyMap κ α) (e : Node κ α) : RecencyMap κ α :=
  { m with index := m.index.erase e.key, order := m.order.filter fun x => x.id ≠ e.id }

/-- The last node. -/
def back (m : RecencyMap κ α) : Option (Node κ α) := m.order.getLast?

/-- The node in front of a node. -/
def prev (m : RecencyMap κ α) (e : Node κ α) : Option (Node κ α) :=
  (m.order.takeWhile fun x => x.id ≠ e.id).getLast?

/-- A walk over at most `n` nodes towards the front. The node in front of the visited one is looked
up before the visited one is removed. -/
def sweep (drop : α → Bool) : ℕ → Option (Node κ α) → RecencyMap κ α → RecencyMap κ α
  | 0, _, m => m
  | _ + 1, none, m => m
  | n + 1, some e, m =>
    let previous := m.prev e
    sweep drop n previous (if drop e.value then m.remove e else m)

/-- A new node in front of the others, and its entry in the index. -/
def pushFront (m : RecencyMap κ α) (k : κ) (a : α) : RecencyMap κ α where
  index := m.index.insert k m.next
  order := ⟨m.next, k, a⟩ :: m.order
  next := m.next + 1

/-! ## Index and list in step -/

/-- The index has the keys of the list, each key is in the list once, and the index leads from it to
its node. -/
structure InStep (m : RecencyMap κ α) : Prop where
  keys : m.index.keys.Perm (m.order.map Node.key)
  lookup : ∀ e ∈ m.order, m.index.lookup e.key = some e.id
  ids : (m.order.map Node.id).Nodup
  fresh : ∀ e ∈ m.order, e.id < m.next

variable {m : RecencyMap κ α} {e x : Node κ α} {k : κ}

/-- An empty map is in step. -/
theorem inStep_empty : InStep (empty : RecencyMap κ α) where
  keys := List.Perm.nil
  lookup := fun _ he => absurd he List.not_mem_nil
  ids := List.nodup_nil
  fresh := fun _ he => absurd he List.not_mem_nil

namespace InStep

/-- The map has as many keys as its order has nodes. -/
theorem size_eq (h : m.InStep) : m.size = m.order.length := by
  have hlength := h.keys.length_eq
  rw [List.length_map] at hlength
  exact hlength

/-- No key is in the order twice. -/
theorem nodup_keys (h : m.InStep) : (m.order.map Node.key).Nodup :=
  h.keys.nodup_iff.mp m.index.keys_nodup

/-- The node of a key is the only one of its key. -/
theorem eq_of_key (h : m.InStep) (he : e ∈ m.order) (hx : x ∈ m.order) (hkey : x.key = e.key) :
    x = e :=
  List.inj_on_of_nodup_map h.nodup_keys hx he hkey

/-- A node is the only one of its identity. -/
theorem eq_of_id (h : m.InStep) (he : e ∈ m.order) (hx : x ∈ m.order) (hid : x.id = e.id) :
    x = e :=
  List.inj_on_of_nodup_map h.ids hx he hid

/-- The index leads to the nodes of the list. -/
theorem node?_eq_some (h : m.InStep) : m.node? k = some e ↔ e ∈ m.order ∧ e.key = k := by
  unfold node?
  rw [Option.bind_eq_some_iff]
  constructor
  -- The index gives the id of the node, and the list the node of that id.
  · rintro ⟨id, hid, hfind⟩
    have hmem : e ∈ m.order := List.mem_of_find?_eq_some hfind
    have heid : e.id = id := by simpa using List.find?_some hfind
    have hkey : k ∈ m.index.keys :=
      AList.mem_keys.mp (AList.lookup_isSome.mp (by rw [hid]; rfl))
    obtain ⟨x, hx, rfl⟩ := List.mem_map.mp (h.keys.mem_iff.mp hkey)
    -- The node of this key has that id, and ids are distinct.
    have hxid : x.id = id := by
      have hlookup := h.lookup x hx
      rw [hid] at hlookup
      exact (Option.some.inj hlookup).symm
    have hxe : x = e := h.eq_of_id hmem hx (by rw [hxid, heid])
    exact ⟨hmem, by rw [hxe]⟩
  -- The node in the list is found by its own id.
  · rintro ⟨hmem, rfl⟩
    refine ⟨e.id, h.lookup e hmem, ?_⟩
    cases hfind : m.order.find? fun x => x.id = e.id with
    | none =>
      have hnot := List.find?_eq_none.mp hfind e hmem
      exact absurd (decide_eq_true rfl) hnot
    | some x =>
      have hxid : x.id = e.id := by simpa using List.find?_some hfind
      rw [h.eq_of_id hmem (List.mem_of_find?_eq_some hfind) hxid]

/-- A key without a node is not in the order. -/
theorem node?_eq_none (h : m.InStep) : m.node? k = none ↔ k ∉ m.order.map Node.key := by
  constructor
  · intro hnone hmem
    obtain ⟨e, he, hkey⟩ := List.mem_map.mp hmem
    rw [h.node?_eq_some.mpr ⟨he, hkey⟩] at hnone
    cases hnone
  · intro hmem
    cases hnode : m.node? k with
    | none => rfl
    | some e =>
      obtain ⟨he, hkey⟩ := h.node?_eq_some.mp hnode
      exact absurd (List.mem_map.mpr ⟨e, he, hkey⟩) hmem

/-- Among the nodes of the list one is told apart by its key as well. -/
theorem filter_id (h : m.InStep) (he : e ∈ m.order) :
    (m.order.filter fun x => x.id ≠ e.id) = m.order.filter fun x => x.key ≠ e.key := by
  refine List.filter_congr fun x hx => ?_
  have hiff : x.id ≠ e.id ↔ x.key ≠ e.key := not_congr
    ⟨fun hid => by rw [h.eq_of_id he hx hid], fun hkey => by rw [h.eq_of_key he hx hkey]⟩
  simp only [hiff]

/-- Removing a node takes its key out of the order. -/
theorem order_remove (h : m.InStep) (he : e ∈ m.order) :
    (m.remove e).order = m.order.filter fun x => x.key ≠ e.key := h.filter_id he

/-- Moving a node to the front puts it before the others, whose order stays. -/
theorem order_moveToFront (h : m.InStep) (he : e ∈ m.order) :
    (m.moveToFront e).order = e :: m.order.filter fun x => x.key ≠ e.key := by
  have hany : (m.order.any fun x => x.id = e.id) = true :=
    List.any_eq_true.mpr ⟨e, he, decide_eq_true rfl⟩
  unfold moveToFront
  rw [if_pos hany, ← h.filter_id he]

/-- Removing a node keeps the map in step. -/
theorem remove (h : m.InStep) (he : e ∈ m.order) : (m.remove e).InStep where
  keys := by
    -- Removing an entry removes its key from the index.
    have hmap : (m.order.filter fun x => x.key ≠ e.key).map Node.key =
        (m.order.map Node.key).erase e.key := by
      rw [h.nodup_keys.erase_eq_filter, List.filter_map]
      refine congrArg _ (List.filter_congr fun x _ => ?_)
      exact decide_not
    rw [h.order_remove he, hmap]
    show (m.index.erase e.key).keys.Perm _
    rw [AList.keys_erase]
    exact h.keys.erase e.key
  lookup := by
    intro x hx
    rw [h.order_remove he] at hx
    -- The other entries keep their ids.
    have hne : x.key ≠ e.key := of_decide_eq_true (List.mem_filter.mp hx).2
    show (m.index.erase e.key).lookup x.key = some x.id
    rw [AList.lookup_erase_ne hne]
    exact h.lookup x (List.mem_filter.mp hx).1
  ids := h.ids.sublist (List.filter_sublist.map _)
  fresh := fun x hx => h.fresh x (List.mem_filter.mp hx).1

/-- Without the key of a node the list is what stands around the node. -/
theorem filter_key (h : m.InStep) {front behind : List (Node κ α)}
    (horder : m.order = front ++ e :: behind) :
    (m.order.filter fun x => x.key ≠ e.key) = front ++ behind := by
  have hkeys := h.nodup_keys
  rw [horder, List.map_append, List.map_cons] at hkeys
  obtain ⟨-, hbehind, hfront⟩ := List.nodup_append.mp hkeys
  rw [horder, List.filter_append, List.filter_cons_of_neg (by simp),
    List.filter_eq_self.mpr, List.filter_eq_self.mpr]
  · intro x hx
    have hnot := (List.nodup_cons.mp hbehind).1
    exact decide_eq_true fun hkey => hnot (hkey ▸ List.mem_map_of_mem hx)
  · intro x hx
    exact decide_eq_true (hfront x.key (List.mem_map_of_mem hx) e.key List.mem_cons_self)

/-- Moving a node to the front permutes the list. -/
theorem perm_moveToFront (h : m.InStep) (he : e ∈ m.order) :
    (m.moveToFront e).order.Perm m.order := by
  obtain ⟨front, behind, hsplit⟩ := List.append_of_mem he
  rw [h.order_moveToFront he, h.filter_key hsplit, hsplit]
  exact List.perm_middle.symm

/-- Moving a node to the front keeps the map in step. -/
theorem moveToFront (h : m.InStep) (he : e ∈ m.order) : (m.moveToFront e).InStep where
  keys := h.keys.trans ((h.perm_moveToFront he).map _).symm
  lookup := fun x hx => h.lookup x ((h.perm_moveToFront he).mem_iff.mp hx)
  ids := ((h.perm_moveToFront he).map _).nodup_iff.mpr h.ids
  fresh := fun x hx => h.fresh x ((h.perm_moveToFront he).mem_iff.mp hx)

/-- A new node at the front keeps the map in step. -/
theorem pushFront {a : α} (h : m.InStep) (hk : k ∉ m.order.map Node.key) :
    (m.pushFront k a).InStep where
  keys := by
    -- The key is new, and so is the id.
    have habsent : k ∉ m.index.keys := fun hmem => hk (h.keys.mem_iff.mp hmem)
    show (m.index.insert k m.next).keys.Perm _
    rw [AList.keys_insert, List.erase_of_not_mem habsent]
    exact h.keys.cons k
  lookup := by
    intro x hx
    rcases List.mem_cons.mp hx with rfl | hx
    · exact AList.lookup_insert m.index
    · have hne : x.key ≠ k := fun hkey => hk (hkey ▸ List.mem_map_of_mem hx)
      show (m.index.insert k m.next).lookup x.key = some x.id
      rw [AList.lookup_insert_ne hne]
      exact h.lookup x hx
  ids := by
    refine List.nodup_cons.mpr ⟨fun hmem => ?_, h.ids⟩
    obtain ⟨x, hx, hid⟩ := List.mem_map.mp hmem
    have hlt := h.fresh x hx
    have hid : x.id = m.next := hid
    omega
  fresh := by
    intro x hx
    show x.id < m.next + 1
    rcases List.mem_cons.mp hx with rfl | hx
    · exact Nat.lt_succ_self m.next
    · exact Nat.lt_succ_of_lt (h.fresh x hx)

end InStep

/-! ## The walk from the back -/

/-- The node in front of one that splits the list. -/
theorem prev_eq {front behind : List (Node κ α)} (h : m.InStep)
    (horder : m.order = front ++ e :: behind) : m.prev e = front.getLast? := by
  have hids := h.ids
  rw [horder, List.map_append, List.map_cons] at hids
  have hfront : ∀ x ∈ front, decide (x.id ≠ e.id) = true := by
    intro x hx
    refine decide_eq_true fun hid => ?_
    have hdisjoint := (List.nodup_append.mp hids).2.2
    exact hdisjoint x.id (List.mem_map_of_mem hx) e.id List.mem_cons_self hid
  unfold prev
  rw [horder, List.takeWhile_append_of_pos hfront,
    List.takeWhile_cons_of_neg (by simp), List.append_nil]

/-- The walk removes the nodes that are to be dropped among those up to where it starts, and no
other. -/
theorem sweep_spec {drop : α → Bool} {front behind : List (Node κ α)} {n : ℕ} (h : m.InStep)
    (horder : m.order = front ++ behind) (hn : front.length ≤ n) :
    (sweep drop n front.getLast? m).InStep ∧
      (sweep drop n front.getLast? m).order = front.filter (fun e => !drop e.value) ++ behind := by
  -- The induction takes the entries from the back, as the sweep does.
  induction front using List.reverseRecOn generalizing m behind n with
  | nil =>
    have hsweep : sweep drop n none m = m := by cases n <;> rfl
    rw [List.getLast?_nil, hsweep]
    exact ⟨h, horder⟩
  | append_singleton front e ih =>
    obtain ⟨n, rfl⟩ : ∃ k, n = k + 1 := ⟨n - 1, by simp at hn; omega⟩
    have hsplit : m.order = front ++ e :: behind := by rw [horder, List.append_assoc]; rfl
    have hlength : front.length ≤ n := by simp at hn; omega
    have hmem : e ∈ m.order := by rw [hsplit]; simp
    -- One step looks at the last entry and goes on with the one before it.
    have hstep : sweep drop (n + 1) (front ++ [e]).getLast? m =
        sweep drop n front.getLast? (if drop e.value then m.remove e else m) := by
      rw [List.getLast?_concat, sweep, prev_eq h hsplit]
    rw [hstep, List.filter_append]
    cases hdrop : drop e.value with
    | false =>
      obtain ⟨hin, hkept⟩ := ih h hsplit hlength
      refine ⟨hin, ?_⟩
      rw [if_neg Bool.false_ne_true, hkept]
      simp [hdrop]
    | true =>
      have hremoved : (m.remove e).order = front ++ behind := by
        rw [h.order_remove hmem, h.filter_key hsplit]
      obtain ⟨hin, hkept⟩ := ih (h.remove hmem) hremoved hlength
      rw [if_pos rfl]
      refine ⟨hin, ?_⟩
      rw [hkept]
      simp [hdrop]

/-- A walk over the whole list drops exactly the nodes that are to be dropped. -/
theorem sweep_back {drop : α → Bool} (h : m.InStep) :
    (sweep drop m.order.length m.back m).InStep ∧
      (sweep drop m.order.length m.back m).order = m.order.filter fun e => !drop e.value := by
  have hspec := @sweep_spec _ _ _ m drop m.order [] _ h (by rw [List.append_nil]) le_rfl
  rw [List.append_nil] at hspec
  exact hspec

end Operations

/-! ## The order of the last uses -/

/-- In the history `uses` the last use of `a` comes before the last use of `b`. -/
def UsedBefore (uses : List κ) (a b : κ) : Prop :=
  ∃ earlier later, uses = earlier ++ later ∧ a ∉ later ∧ b ∈ later

/-- A key that was used before another stays so while other keys are used. -/
theorem UsedBefore.snoc {uses : List κ} {a b c : κ} (h : UsedBefore uses a b) (ha : a ≠ c) :
    UsedBefore (uses ++ [c]) a b := by
  obtain ⟨earlier, later, rfl, hnot, hmem⟩ := h
  refine ⟨earlier, later ++ [c], List.append_assoc .., ?_, List.mem_append_left _ hmem⟩
  simp [hnot, ha]

/-- A key is used before the one that is used now. -/
theorem usedBefore_last {uses : List κ} {a c : κ} (ha : a ≠ c) : UsedBefore (uses ++ [c]) a c :=
  ⟨uses, [c], rfl, by simp [ha], List.mem_singleton_self c⟩

/-- The nodes of a list are in the order of the last uses of their keys, the latest in front. -/
def ByLastUse (uses : List κ) (nodes : List (Node κ α)) : Prop :=
  nodes.Pairwise fun x y => UsedBefore uses y.key x.key

/-- The node that is used comes to the front, and the others keep their order. -/
theorem ByLastUse.use {e : Node κ α} {uses : List κ} {nodes : List (Node κ α)}
    (h : ByLastUse uses nodes)
    (hnodes : ∀ x ∈ nodes, x.key ≠ e.key) : ByLastUse (uses ++ [e.key]) (e :: nodes) := by
  refine List.pairwise_cons.mpr ⟨fun x hx => usedBefore_last (hnodes x hx), ?_⟩
  exact h.imp_of_mem fun _ hy hbefore => hbefore.snoc (hnodes _ hy)

end RecencyMap

end LedgerSync.Lib
