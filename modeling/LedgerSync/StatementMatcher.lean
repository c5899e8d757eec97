import Mathlib.Data.List.Perm.Basic
import Mathlib.Data.List.Nodup
import Mathlib.Data.String.Basic
import Mathlib.Order.Defs.LinearOrder
import LedgerSync.Reconciliation

/-!
# The exact matcher

`MatchExact` proposes the matches of a run: it collects the items under the four fields that must
agree, counts the rows under the same fields, and matches a row only when both sides name one
candidate. The loops fill maps; `matchExact_eq` says what they leave as functions of the two lists,
and the results on matching and on the order of the lists follow from it.

The map from fields to items is a function with a default, as an absent key of the source's maps
reads as the zero value.
-/

namespace LedgerSync

open Lib

/-! ## The matcher -/

/-- A row as the matcher reads it: `Row`. -/
structure ExternalRow where
  id : String
  reference : String
  direction : String
  amountMinor : ℤ
  currency : String
deriving DecidableEq

/-- A frozen posting: `LedgerItem`. -/
structure LedgerItem where
  id : String
  reference : String
  direction : String
  amountMinor : ℤ
  currency : String
deriving DecidableEq

/-- `matchKey`. -/
structure MatchKey where
  reference : String
  direction : String
  currency : String
  minor : ℤ
deriving DecidableEq

/-- What a row is matched by. -/
def ExternalRow.key (r : ExternalRow) : MatchKey :=
  ⟨r.reference, r.direction, r.currency, r.amountMinor⟩

/-- What an item of the ledger is matched by. -/
def LedgerItem.key (i : LedgerItem) : MatchKey :=
  ⟨i.reference, i.direction, i.currency, i.amountMinor⟩

/-- `ExactMatch`. -/
structure ExactMatch where
  rowId : String
  postingId : String
deriving DecidableEq

/-- `RowMatch`. -/
structure RowMatch where
  rowId : String
  status : Classification
  candidates : List String
deriving DecidableEq

/-- `MatchResult`. -/
structure MatchResult where
  proposed : List ExactMatch
  rows : List RowMatch
  unmatchedPostings : List String
deriving DecidableEq

/-- `sort.Strings`. -/
def sortStrings (xs : List String) : List String := xs.mergeSort fun x y => decide (x ≤ y)

/-- The maps of the first loop. -/
structure ItemIndex where
  byKey : MatchKey → List String
  byReference : String → Bool

/-- The index before any item. -/
def ItemIndex.empty : ItemIndex := ⟨fun _ => [], fun _ => false⟩

/-- The body of the loop over the items. -/
def ItemIndex.add (m : ItemIndex) (item : LedgerItem) : ItemIndex where
  byKey := Function.update m.byKey item.key (m.byKey item.key ++ [item.id])
  byReference := Function.update m.byReference item.reference true

/-- The loop over the items. -/
def indexItems (items : List LedgerItem) : ItemIndex := items.foldl .add .empty

/-- The loop that counts the rows. -/
def rowCounts (rows : List ExternalRow) : MatchKey → ℕ :=
  rows.foldl (fun counts row => Function.update counts row.key (counts row.key + 1)) fun _ => 0

/-- What the main loop has collected. -/
structure MatchLoop where
  used : String → Bool
  proposed : List ExactMatch
  rows : List RowMatch

/-- The loop before its first row. -/
def MatchLoop.start : MatchLoop := ⟨fun _ => false, [], []⟩

/-- The body of the main loop. -/
def MatchLoop.visit (m : ItemIndex) (counts : MatchKey → ℕ) (l : MatchLoop) (row : ExternalRow) :
    MatchLoop :=
  let key := row.key
  let candidates := sortStrings (m.byKey key)
  match candidates with
  | [] =>
    if m.byReference row.reference then
      { l with rows := l.rows ++ [⟨row.id, .amountOrDirectionDifference, candidates⟩] }
    else
      { l with rows := l.rows ++ [⟨row.id, .unmatchedExternal, candidates⟩] }
  | [candidate] =>
    if counts key = 1 then
      { used := Function.update l.used candidate true
        proposed := l.proposed ++ [⟨row.id, candidate⟩]
        rows := l.rows ++ [⟨row.id, .matched, candidates⟩] }
    else
      { l with rows := l.rows ++ [⟨row.id, .ambiguous, candidates⟩] }
  | _ :: _ :: _ =>
    { l with rows := l.rows ++ [⟨row.id, .ambiguous, candidates⟩] }

/-- `MatchExact`. -/
def matchExact (rows : List ExternalRow) (items : List LedgerItem) : MatchResult :=
  let m := indexItems items
  let counts := rowCounts rows
  let l := rows.foldl (MatchLoop.visit m counts) .start
  { proposed := l.proposed
    rows := l.rows
    unmatchedPostings :=
      sortStrings ((items.filter fun item => !l.used item.id).map LedgerItem.id) }

/-! ## Sorted texts -/

/-- Sorting only changes the order. -/
theorem sortStrings_perm (xs : List String) : (sortStrings xs).Perm xs := List.mergeSort_perm xs _

/-- Sorting keeps the elements. -/
theorem mem_sortStrings {x : String} {xs : List String} : x ∈ sortStrings xs ↔ x ∈ xs :=
  (sortStrings_perm xs).mem_iff

/-- Sorted texts are in order. -/
theorem sortStrings_pairwise (xs : List String) : (sortStrings xs).Pairwise (· ≤ ·) := by
  have htrans : ∀ x y z : String, decide (x ≤ y) = true → decide (y ≤ z) = true →
      decide (x ≤ z) = true := by
    intro x y z hxy hyz
    exact decide_eq_true ((of_decide_eq_true hxy).trans (of_decide_eq_true hyz))
  have htotal : ∀ x y : String, (decide (x ≤ y) || decide (y ≤ x)) = true := by
    intro x y
    rcases le_total x y with h | h <;> simp [h]
  exact (List.pairwise_mergeSort htrans htotal xs).imp of_decide_eq_true

/-- Sorting forgets the order. -/
theorem sortStrings_eq_of_perm {xs ys : List String} (h : xs.Perm ys) :
    sortStrings xs = sortStrings ys := by
  have hperm : (sortStrings xs).Perm (sortStrings ys) :=
    ((sortStrings_perm xs).trans h).trans (sortStrings_perm ys).symm
  exact hperm.eq_of_pairwise (fun a b _ _ hab hba => le_antisymm hab hba)
    (sortStrings_pairwise xs) (sortStrings_pairwise ys)

/-! ## What the loops leave -/

/-- The postings with the fields of a row, sorted. -/
def candidatesOf (items : List LedgerItem) (key : MatchKey) : List String :=
  sortStrings ((items.filter fun item => item.key = key).map LedgerItem.id)

/-- The index has under each key the identifiers of its items, in their order. -/
theorem byKey_indexItems (items : List LedgerItem) (key : MatchKey) :
    (indexItems items).byKey key = (items.filter fun item => item.key = key).map LedgerItem.id := by
  unfold indexItems
  induction items using List.reverseRecOn with
  | nil => rfl
  | append_singleton items item ih =>
    rw [List.foldl_append, List.foldl_cons, List.foldl_nil, List.filter_append, List.map_append,
      ← ih]
    by_cases h : item.key = key
    · subst h
      simp [ItemIndex.add]
    · have hne : key ≠ item.key := fun he => h he.symm
      simp [ItemIndex.add, Function.update_of_ne hne, h]

/-- The index has exactly the references of the items. -/
theorem byReference_indexItems (items : List LedgerItem) (reference : String) :
    (indexItems items).byReference reference = true ↔
      ∃ item ∈ items, item.reference = reference := by
  unfold indexItems
  induction items using List.reverseRecOn with
  | nil => simp [ItemIndex.empty]
  | append_singleton items item ih =>
    rw [List.foldl_append, List.foldl_cons, List.foldl_nil]
    by_cases h : item.reference = reference
    · subst h
      simp [ItemIndex.add]
    · have hne : reference ≠ item.reference := fun he => h he.symm
      simp only [ItemIndex.add, Function.update_of_ne hne, ih, List.mem_append, List.mem_singleton]
      constructor
      · rintro ⟨i, hi, href⟩
        exact ⟨i, .inl hi, href⟩
      · rintro ⟨i, hi | rfl, href⟩
        · exact ⟨i, hi, href⟩
        · exact absurd href h

/-- The count of a key is the number of rows that have it. -/
theorem rowCounts_eq (rows : List ExternalRow) (key : MatchKey) :
    rowCounts rows key = rows.countP fun row => row.key = key := by
  unfold rowCounts
  induction rows using List.reverseRecOn with
  | nil => rfl
  | append_singleton rows row ih =>
    rw [List.foldl_append, List.foldl_cons, List.foldl_nil, List.countP_append, ← ih]
    by_cases h : row.key = key
    · subst h
      simp
    · have hne : key ≠ row.key := fun he => h he.symm
      simp [Function.update_of_ne hne, h]

/-- The candidate of a row that is matched. -/
def matchOf (rows : List ExternalRow) (items : List LedgerItem) (row : ExternalRow) :
    Option String :=
  match candidatesOf items row.key with
  | [candidate] => if (rows.countP fun r => r.key = row.key) = 1 then some candidate else none
  | _ => none

/-- The status of a row. -/
def statusOf (rows : List ExternalRow) (items : List LedgerItem) (row : ExternalRow) :
    Classification :=
  if candidatesOf items row.key = [] then
    if ∃ item ∈ items, item.reference = row.reference then .amountOrDirectionDifference
    else .unmatchedExternal
  else if (matchOf rows items row).isSome then .matched
  else .ambiguous

/-- The outcome of one row. -/
def rowMatchOf (rows : List ExternalRow) (items : List LedgerItem) (row : ExternalRow) : RowMatch :=
  ⟨row.id, statusOf rows items row, candidatesOf items row.key⟩

/-- The proposal for one row, if there is one. -/
def proposalOf (rows : List ExternalRow) (items : List LedgerItem) (row : ExternalRow) :
    Option ExactMatch :=
  (matchOf rows items row).map fun candidate => ⟨row.id, candidate⟩

section Loops

variable (rows : List ExternalRow) (items : List LedgerItem)

/-- One turn of the main loop. -/
theorem visit_eq (l : MatchLoop) (row : ExternalRow) :
    l.visit (indexItems items) (rowCounts rows) row =
      { used := fun x => l.used x || decide (matchOf rows items row = some x)
        proposed := l.proposed ++ (proposalOf rows items row).toList
        rows := l.rows ++ [rowMatchOf rows items row] } := by
  have hsorted : sortStrings ((indexItems items).byKey row.key) = candidatesOf items row.key := by
    rw [byKey_indexItems, candidatesOf]
  unfold MatchLoop.visit proposalOf rowMatchOf statusOf matchOf
  simp only [hsorted, rowCounts_eq]
  -- A row has no candidate, one, or several.
  rcases hcandidates : candidatesOf items row.key with _ | ⟨candidate, _ | ⟨other, others⟩⟩
  · have hiff := byReference_indexItems items row.reference
    by_cases href : ∃ item ∈ items, item.reference = row.reference
    · simp [href, hiff.mpr href]
    · simp [href, Bool.eq_false_iff.mpr fun h => href (hiff.mp h)]
  · by_cases hcount : (rows.countP fun r => r.key = row.key) = 1
    -- Using the candidate is the same as recording the match of this row.
    · have hused : Function.update l.used candidate true =
          fun x => l.used x || decide (candidate = x) := by
        funext x
        by_cases hx : x = candidate
        · subst hx
          simp
        · have hne : candidate ≠ x := fun h => hx h.symm
          simp [Function.update_of_ne hx, hne]
      simp [hcount, hused]
    · simp [hcount]
  · simp

/-- The main loop after some rows. -/
theorem foldl_visit_eq (visited : List ExternalRow) :
    visited.foldl (MatchLoop.visit (indexItems items) (rowCounts rows)) .start =
      { used := fun x => visited.any fun row => decide (matchOf rows items row = some x)
        proposed := visited.filterMap (proposalOf rows items)
        rows := visited.map (rowMatchOf rows items) } := by
  induction visited using List.reverseRecOn with
  | nil => rfl
  | append_singleton visited row ih =>
    rw [List.foldl_append, List.foldl_cons, List.foldl_nil, ih, visit_eq]
    simp only [List.any_append, List.any_cons, List.any_nil, Bool.or_false, List.filterMap_append,
      List.filterMap_cons, List.filterMap_nil, List.map_append, List.map_cons, List.map_nil]
    cases proposalOf rows items row <;> rfl

/-- **What the matcher returns.** -/
theorem matchExact_eq : matchExact rows items =
    { proposed := rows.filterMap (proposalOf rows items)
      rows := rows.map (rowMatchOf rows items)
      unmatchedPostings := sortStrings ((items.filter fun item =>
        !rows.any fun row => decide (matchOf rows items row = some item.id)).map LedgerItem.id) } := by
  simp only [matchExact, foldl_visit_eq]

end Loops

/-! ## Both sides of the candidate graph -/

/-- In a list without repetitions, one element satisfies a predicate alone exactly when filtering
leaves it alone. -/
theorem filter_eq_singleton_iff {α : Type} {p : α → Bool} {l : List α} (hl : l.Nodup) {a : α}
    (ha : a ∈ l) : l.filter p = [a] ↔ p a = true ∧ ∀ b ∈ l, p b = true → b = a := by
  constructor
  · intro h
    have hmem : ∀ b, b ∈ l ∧ p b = true ↔ b = a := fun b => by
      rw [← List.mem_filter, h, List.mem_singleton]
    exact ⟨((hmem a).mpr rfl).2, fun b hb hpb => (hmem b).mp ⟨hb, hpb⟩⟩
  · rintro ⟨hpa, hsole⟩
    have hperm : (l.filter p).Perm [a] := by
      refine (List.perm_ext_iff_of_nodup (hl.filter p) (List.nodup_singleton a)).mpr fun b => ?_
      rw [List.mem_filter, List.mem_singleton]
      exact ⟨fun h => hsole b h.1 h.2, fun h => h ▸ ⟨ha, hpa⟩⟩
    exact List.perm_singleton.mp hperm

/-- In a list without repetitions, one element satisfies what no other does exactly when the count
is one. -/
theorem countP_eq_one_iff {α : Type} {p : α → Bool} {l : List α} (hl : l.Nodup) {a : α}
    (ha : a ∈ l) (hpa : p a = true) : l.countP p = 1 ↔ ∀ b ∈ l, p b = true → b = a := by
  have hmem : a ∈ l.filter p := List.mem_filter.mpr ⟨ha, hpa⟩
  have hsole := filter_eq_singleton_iff (p := p) hl ha
  rw [List.countP_eq_length_filter]
  constructor
  · intro h
    obtain ⟨b, hb⟩ := List.length_eq_one_iff.mp h
    rw [hb, List.mem_singleton] at hmem
    exact (hsole.mp (hmem ▸ hb)).2
  · intro h
    rw [hsole.mpr ⟨hpa, h⟩]
    rfl

/-- The row and the item agree in the four fields, and no other row and no other item does. -/
def SoleMatch (rows : List ExternalRow) (items : List LedgerItem) (row : ExternalRow)
    (item : LedgerItem) : Prop :=
  item.key = row.key ∧ (∀ i ∈ items, i.key = row.key → i = item) ∧
    ∀ r ∈ rows, r.key = row.key → r = row

/-- At most one row has an item as its sole match. -/
theorem SoleMatch.row_unique {rows : List ExternalRow} {items : List LedgerItem}
    {row row' : ExternalRow} {item : LedgerItem} (h : SoleMatch rows items row item)
    (h' : SoleMatch rows items row' item) (hrow : row ∈ rows) : row = row' :=
  h'.2.2 row hrow (h.1.symm.trans h'.1)

/-- Texts sort to a single one exactly when they are that one. -/
theorem sortStrings_eq_singleton {xs : List String} {x : String} :
    sortStrings xs = [x] ↔ xs = [x] := by
  constructor
  · intro h
    exact List.perm_singleton.mp (h ▸ (sortStrings_perm xs).symm)
  · rintro rfl
    exact List.perm_singleton.mp (sortStrings_perm [x])

/-- A key has no candidates exactly when no item has the key. -/
theorem candidatesOf_eq_nil {items : List LedgerItem} {key : MatchKey} :
    candidatesOf items key = [] ↔ ∀ item ∈ items, item.key ≠ key := by
  have hnil : candidatesOf items key = [] ↔
      (items.filter fun item => item.key = key).map LedgerItem.id = [] :=
    ⟨fun h => List.perm_nil.mp (h ▸ (sortStrings_perm _).symm), fun h => by
      rw [candidatesOf, h]
      exact List.perm_nil.mp (sortStrings_perm [])⟩
  rw [hnil, List.map_eq_nil_iff, List.filter_eq_nil_iff]
  simp

/-- A row is matched when its key has one candidate and no other row. -/
theorem matchOf_eq_some {rows : List ExternalRow} {items : List LedgerItem} {row : ExternalRow}
    {candidate : String} : matchOf rows items row = some candidate ↔
      candidatesOf items row.key = [candidate] ∧
        (rows.countP fun r => r.key = row.key) = 1 := by
  unfold matchOf
  rcases candidatesOf items row.key with _ | ⟨c, _ | ⟨c', cs⟩⟩ <;> simp [and_comm]

section Distinct

variable {rows : List ExternalRow} {items : List LedgerItem}
  (hrows : (rows.map ExternalRow.id).Nodup) (hitems : (items.map LedgerItem.id).Nodup)

include hitems in
/-- An item is the only candidate of a key when it is the only item with that key. -/
theorem candidatesOf_eq_singleton {key : MatchKey} {item : LedgerItem} (hitem : item ∈ items) :
    candidatesOf items key = [item.id] ↔ item.key = key ∧ ∀ i ∈ items, i.key = key → i = item := by
  have hsole := filter_eq_singleton_iff (p := fun i : LedgerItem => decide (i.key = key))
    (List.Nodup.of_map LedgerItem.id hitems) hitem
  simp only [decide_eq_true_eq] at hsole
  rw [candidatesOf, sortStrings_eq_singleton, ← hsole]
  constructor
  · intro h
    obtain ⟨i, hi, hid⟩ := List.map_eq_singleton_iff.mp h
    have himem : i ∈ items := List.mem_of_mem_filter (hi ▸ List.mem_singleton_self i)
    rw [hi, List.inj_on_of_nodup_map hitems himem hitem hid]
  · intro h
    rw [h]
    rfl

include hrows hitems in
/-- A row is matched to an item exactly when the two are each other's sole match. -/
theorem matchOf_eq_some_iff {row : ExternalRow} (hrow : row ∈ rows) {item : LedgerItem}
    (hitem : item ∈ items) :
    matchOf rows items row = some item.id ↔ SoleMatch rows items row item := by
  have hcount := countP_eq_one_iff (p := fun r : ExternalRow => decide (r.key = row.key))
    (List.Nodup.of_map ExternalRow.id hrows) hrow (decide_eq_true rfl)
  simp only [decide_eq_true_eq] at hcount
  rw [matchOf_eq_some, candidatesOf_eq_singleton hitems hitem, hcount, SoleMatch, and_assoc]

include hrows hitems in
/-- What a row is matched to is an item that is alone with it. -/
theorem exists_of_matchOf {row : ExternalRow} (hrow : row ∈ rows) {candidate : String}
    (h : matchOf rows items row = some candidate) :
    ∃ item ∈ items, item.id = candidate ∧ SoleMatch rows items row item := by
  have hmem : candidate ∈ candidatesOf items row.key := by
    rw [(matchOf_eq_some.mp h).1]
    exact List.mem_singleton_self candidate
  obtain ⟨item, hitem, rfl⟩ := List.mem_map.mp (mem_sortStrings.mp hmem)
  have hitem' := List.mem_of_mem_filter hitem
  exact ⟨item, hitem', rfl, (matchOf_eq_some_iff hrows hitems hrow hitem').mp h⟩

include hrows in
/-- The results name their rows. -/
theorem mem_rowMatches {f : ExternalRow → RowMatch} (hf : ∀ row, (f row).rowId = row.id)
    {row : ExternalRow} (hrow : row ∈ rows) {m : RowMatch} (hm : m.rowId = row.id) :
    m ∈ rows.map f ↔ f row = m := by
  constructor
  · intro h
    obtain ⟨row', hrow', rfl⟩ := List.mem_map.mp h
    rw [List.inj_on_of_nodup_map hrows hrow' hrow ((hf row').symm.trans hm)]
  · rintro rfl
    exact List.mem_map_of_mem hrow

end Distinct

/-! ## The matching -/

/-- What the matcher promises of a result. -/
structure ConservativeMatching (rows : List ExternalRow) (items : List LedgerItem)
    (result : MatchResult) : Prop where
  /-- Every row has one result, in the order of the rows. -/
  named : result.rows.map RowMatch.rowId = rows.map ExternalRow.id
  /-- A row is matched to an item exactly when each is alone with its fields. -/
  matched_iff : ∀ row ∈ rows, ∀ item ∈ items,
    (⟨row.id, .matched, [item.id]⟩ ∈ result.rows ↔ SoleMatch rows items row item) ∧
    (⟨row.id, item.id⟩ ∈ result.proposed ↔ SoleMatch rows items row item)
  /-- A matched row has one candidate. -/
  matched_candidates : ∀ m ∈ result.rows, m.status = .matched →
    ∃ item ∈ items, m.candidates = [item.id]
  /-- The proposals join rows with items. -/
  proposed_mem : ∀ m ∈ result.proposed, ∃ row ∈ rows, ∃ item ∈ items, m = ⟨row.id, item.id⟩
  /-- No row and no item stands in two proposals. -/
  injective : result.proposed.Pairwise fun m m' => m.rowId ≠ m'.rowId ∧ m.postingId ≠ m'.postingId
  /-- An item is proposed or left over. -/
  partition : ∀ item ∈ items,
    Xor (∃ m ∈ result.proposed, m.postingId = item.id) (item.id ∈ result.unmatchedPostings)
  /-- The rest consists of items, each once. -/
  rest : result.unmatchedPostings.Nodup ∧
    ∀ x ∈ result.unmatchedPostings, x ∈ items.map LedgerItem.id
  /-- A difference is reported when only the reference is known. -/
  difference_iff : ∀ row ∈ rows,
    (∃ candidates, ⟨row.id, .amountOrDirectionDifference, candidates⟩ ∈ result.rows) ↔
      (∀ item ∈ items, item.key ≠ row.key) ∧ ∃ item ∈ items, item.reference = row.reference

section Matching

variable {rows : List ExternalRow} {items : List LedgerItem}
  (hrows : (rows.map ExternalRow.id).Nodup) (hitems : (items.map LedgerItem.id).Nodup)

/-- A row is shown as matched exactly when it has a match. -/
theorem statusOf_eq_matched {row : ExternalRow} :
    statusOf rows items row = .matched ↔ (matchOf rows items row).isSome := by
  unfold statusOf
  by_cases hnil : candidatesOf items row.key = []
  · have hnone : matchOf rows items row = none := by
      unfold matchOf
      rw [hnil]
    by_cases href : ∃ item ∈ items, item.reference = row.reference <;> simp [hnil, hnone, href]
  · by_cases hsome : (matchOf rows items row).isSome <;> simp [hnil, hsome]

/-- A row is shown as different when no item has its key but some item has its reference. -/
theorem statusOf_eq_difference {row : ExternalRow} :
    statusOf rows items row = .amountOrDirectionDifference ↔
      (∀ item ∈ items, item.key ≠ row.key) ∧ ∃ item ∈ items, item.reference = row.reference := by
  rw [← candidatesOf_eq_nil]
  unfold statusOf
  by_cases hnil : candidatesOf items row.key = []
  · by_cases href : ∃ item ∈ items, item.reference = row.reference
    · simp only [hnil, href, if_true, and_self]
    · simp [hnil, href]
  · by_cases hsome : (matchOf rows items row).isSome <;> simp [hnil, hsome]

/-- The proposals are the matches of the rows. -/
theorem mem_proposed {m : ExactMatch} : m ∈ rows.filterMap (proposalOf rows items) ↔
    ∃ row ∈ rows, row.id = m.rowId ∧ matchOf rows items row = some m.postingId := by
  simp only [List.mem_filterMap, proposalOf, Option.map_eq_some_iff]
  constructor
  · rintro ⟨row, hrow, candidate, hmatch, rfl⟩
    exact ⟨row, hrow, rfl, hmatch⟩
  · rintro ⟨row, hrow, hid, hmatch⟩
    exact ⟨row, hrow, m.postingId, hmatch, by rw [hid]⟩

include hrows hitems in
/-- Both listings of the result have a match exactly when it is the sole one. -/
theorem matchExact_matched_iff {row : ExternalRow} (hrow : row ∈ rows) {item : LedgerItem}
    (hitem : item ∈ items) :
    (⟨row.id, .matched, [item.id]⟩ ∈ (matchExact rows items).rows ↔
        SoleMatch rows items row item) ∧
      (⟨row.id, item.id⟩ ∈ (matchExact rows items).proposed ↔ SoleMatch rows items row item) := by
  have hsole := matchOf_eq_some_iff hrows hitems hrow hitem
  rw [matchExact_eq, ← hsole]
  -- The row is matched with this candidate just when it is the sole match.
  constructor
  · rw [mem_rowMatches hrows (fun _ => rfl) hrow rfl, rowMatchOf, RowMatch.mk.injEq,
      statusOf_eq_matched]
    constructor
    · rintro ⟨-, hsome, hcandidates⟩
      obtain ⟨candidate, hmatch⟩ := Option.isSome_iff_exists.mp hsome
      have hsame := (matchOf_eq_some.mp hmatch).1
      rw [hcandidates, List.singleton_inj] at hsame
      rw [hmatch, hsame]
    · intro hmatch
      exact ⟨rfl, by rw [hmatch]; rfl, (matchOf_eq_some.mp hmatch).1⟩
  · rw [mem_proposed]
    constructor
    -- Row ids are distinct, so that the proposal is of this row.
    · rintro ⟨row', hrow', hid, hmatch⟩
      rwa [List.inj_on_of_nodup_map hrows hrow' hrow hid] at hmatch
    · exact fun hmatch => ⟨row, hrow, rfl, hmatch⟩

include hrows hitems in
/-- No row and no item is proposed twice. -/
theorem matchExact_injective : (matchExact rows items).proposed.Pairwise fun m m' =>
    m.rowId ≠ m'.rowId ∧ m.postingId ≠ m'.postingId := by
  rw [matchExact_eq]
  show (rows.filterMap (proposalOf rows items)).Pairwise _
  rw [List.pairwise_filterMap]
  have hdistinct : rows.Pairwise fun row row' => row.id ≠ row'.id := List.pairwise_map.mp hrows
  refine hdistinct.imp_of_mem fun {row row'} hrow hrow' hne m hm m' hm' => ?_
  obtain ⟨candidate, hmatch, rfl⟩ := Option.map_eq_some_iff.mp hm
  obtain ⟨candidate', hmatch', rfl⟩ := Option.map_eq_some_iff.mp hm'
  refine ⟨hne, fun hsame => hne ?_⟩
  obtain ⟨item, hitem, hid, hsole⟩ := exists_of_matchOf hrows hitems hrow hmatch
  obtain ⟨item', hitem', hid', hsole'⟩ := exists_of_matchOf hrows hitems hrow' hmatch'
  -- One candidate of two rows is one item, which is alone with each of them.
  have heq : item = item' :=
    List.inj_on_of_nodup_map hitems hitem hitem' (hid.trans (hsame.trans hid'.symm))
  subst heq
  rw [hsole.row_unique hsole' hrow]

/-- The items left over are those that no row is matched to. -/
theorem mem_unmatchedPostings {x : String} : x ∈ (matchExact rows items).unmatchedPostings ↔
    x ∈ items.map LedgerItem.id ∧ ∀ row ∈ rows, matchOf rows items row ≠ some x := by
  rw [matchExact_eq]
  show x ∈ sortStrings _ ↔ _
  rw [mem_sortStrings]
  simp only [List.mem_map, List.mem_filter, Bool.not_eq_true', List.any_eq_false,
    decide_eq_true_eq]
  constructor
  · rintro ⟨item, ⟨hitem, hunused⟩, rfl⟩
    exact ⟨⟨item, hitem, rfl⟩, hunused⟩
  · rintro ⟨⟨item, hitem, rfl⟩, hunused⟩
    exact ⟨item, ⟨hitem, hunused⟩, rfl⟩

/-- Every item is either proposed or left over. -/
theorem matchExact_partition {item : LedgerItem} (hitem : item ∈ items) :
    Xor (∃ m ∈ (matchExact rows items).proposed, m.postingId = item.id)
      (item.id ∈ (matchExact rows items).unmatchedPostings) := by
  have hproposed : (∃ m ∈ (matchExact rows items).proposed, m.postingId = item.id) ↔
      ∃ row ∈ rows, matchOf rows items row = some item.id := by
    rw [matchExact_eq]
    constructor
    · rintro ⟨m, hm, hid⟩
      obtain ⟨row, hrow, -, hmatch⟩ := mem_proposed.mp hm
      exact ⟨row, hrow, hid ▸ hmatch⟩
    · rintro ⟨row, hrow, hmatch⟩
      exact ⟨⟨row.id, item.id⟩, mem_proposed.mpr ⟨row, hrow, rfl, hmatch⟩, rfl⟩
  rw [hproposed, mem_unmatchedPostings]
  by_cases h : ∃ row ∈ rows, matchOf rows items row = some item.id
  · obtain ⟨row, hrow, hmatch⟩ := h
    exact .inl ⟨⟨row, hrow, hmatch⟩, fun hrest => hrest.2 row hrow hmatch⟩
  · refine .inr ⟨⟨List.mem_map_of_mem hitem, fun row hrow hmatch => ?_⟩, h⟩
    exact h ⟨row, hrow, hmatch⟩

include hrows hitems in
/-- The matcher is conservative. -/
theorem conservativeMatching : ConservativeMatching rows items (matchExact rows items) where
  named := by
    rw [matchExact_eq, List.map_map]
    rfl
  matched_iff row hrow item hitem := matchExact_matched_iff hrows hitems hrow hitem
  -- A matched row has the one candidate of its match.
  matched_candidates m hm hstatus := by
    rw [matchExact_eq] at hm
    obtain ⟨row, hrow, rfl⟩ := List.mem_map.mp hm
    obtain ⟨candidate, hmatch⟩ := Option.isSome_iff_exists.mp (statusOf_eq_matched.mp hstatus)
    obtain ⟨item, hitem, rfl, -⟩ := exists_of_matchOf hrows hitems hrow hmatch
    exact ⟨item, hitem, (matchOf_eq_some.mp hmatch).1⟩
  proposed_mem m hm := by
    rw [matchExact_eq] at hm
    obtain ⟨row, hrow, hid, hmatch⟩ := mem_proposed.mp hm
    obtain ⟨item, hitem, hid', -⟩ := exists_of_matchOf hrows hitems hrow hmatch
    exact ⟨row, hrow, item, hitem, by rw [hid, hid']⟩
  injective := matchExact_injective hrows hitems
  partition item hitem := matchExact_partition hitem
  -- The items left over are sorted, which does not repeat any.
  rest := by
    refine ⟨?_, fun x hx => (mem_unmatchedPostings.mp hx).1⟩
    rw [matchExact_eq]
    show (sortStrings _).Nodup
    rw [(sortStrings_perm _).nodup_iff]
    exact hitems.sublist (List.filter_sublist.map _)
  difference_iff row hrow := by
    rw [matchExact_eq, ← statusOf_eq_difference]
    constructor
    · rintro ⟨candidates, hm⟩
      have heq := (mem_rowMatches hrows (fun _ => rfl) hrow rfl).mp hm
      exact (RowMatch.mk.inj heq).2.1
    · intro hstatus
      exact ⟨candidatesOf items row.key,
        (mem_rowMatches hrows (fun _ => rfl) hrow rfl).mpr (by rw [rowMatchOf, hstatus])⟩

end Matching

/-! ## The order of the lists -/

section Order

variable {rows rows' : List ExternalRow} {items items' : List LedgerItem}
  (hrows : rows'.Perm rows) (hitems : items'.Perm items)

include hitems in
/-- The candidates of a key do not depend on the order of the items. -/
theorem candidatesOf_perm : candidatesOf items' = candidatesOf items := by
  funext key
  exact sortStrings_eq_of_perm ((hitems.filter _).map _)

include hrows hitems in
/-- The match of a row does not depend on the orders. -/
theorem matchOf_perm : matchOf rows' items' = matchOf rows items := by
  funext row
  unfold matchOf
  rw [candidatesOf_perm hitems, hrows.countP_eq]

include hrows hitems in
/-- The outcome of a row does not depend on the orders. -/
theorem rowMatchOf_perm : rowMatchOf rows' items' = rowMatchOf rows items := by
  funext row
  have href : (∃ item ∈ items', item.reference = row.reference) ↔
      ∃ item ∈ items, item.reference = row.reference := by
    simp only [hitems.mem_iff]
  simp only [rowMatchOf, statusOf, candidatesOf_perm hitems, matchOf_perm hrows hitems, href]

include hrows hitems in
/-- Each row keeps its result, and the rest stays. -/
theorem matchExact_perm : matchExact rows' items' =
    { proposed := rows'.filterMap (proposalOf rows items)
      rows := rows'.map (rowMatchOf rows items)
      unmatchedPostings := (matchExact rows items).unmatchedPostings } := by
  have hproposal : proposalOf rows' items' = proposalOf rows items := by
    funext row
    rw [proposalOf, proposalOf, matchOf_perm hrows hitems]
  have hrest : (items'.filter fun item =>
      !rows'.any fun row => decide (matchOf rows items row = some item.id)).Perm
      (items.filter fun item =>
        !rows.any fun row => decide (matchOf rows items row = some item.id)) := by
    simp only [hrows.any_eq]
    exact hitems.filter _
  rw [matchExact_eq, matchExact_eq, hproposal, rowMatchOf_perm hrows hitems,
    matchOf_perm hrows hitems, sortStrings_eq_of_perm (hrest.map _)]

end Order

/-- **Exact matching.** With distinct ids on both sides the matching is conservative. In another
order of the rows and the items each row has the result and the proposal it had, and the postings
left over are the same. -/
theorem matchExact_exact (rows : List ExternalRow) (items : List LedgerItem)
    (hrows : (rows.map ExternalRow.id).Nodup) (hitems : (items.map LedgerItem.id).Nodup) :
    ConservativeMatching rows items (matchExact rows items) ∧
    ∃ (outcome : ExternalRow → RowMatch) (proposal : ExternalRow → Option ExactMatch),
      ∀ rows' items', rows'.Perm rows → items'.Perm items →
        matchExact rows' items' =
          { proposed := rows'.filterMap proposal
            rows := rows'.map outcome
            unmatchedPostings := (matchExact rows items).unmatchedPostings } :=
  ⟨conservativeMatching hrows hitems, rowMatchOf rows items, proposalOf rows items,
    fun _ _ hrows' hitems' => matchExact_perm hrows' hitems'⟩

namespace Sample

/-- A reference that one row and one posting share, and one that two postings share. -/
def externalRows : List ExternalRow :=
  [⟨"r1", "ref", "debit", 100, "INR"⟩, ⟨"r2", "twice", "debit", 100, "INR"⟩]

/-- The items of the sample. -/
def ledgerItems : List LedgerItem :=
  [⟨"p1", "ref", "debit", 100, "INR"⟩, ⟨"p2", "twice", "debit", 100, "INR"⟩,
    ⟨"p3", "twice", "debit", 100, "INR"⟩]

end Sample

/-- The pair is matched, and the shared reference decides nothing. -/
theorem matchExact_exact_sample :
    ⟨"r1", .matched, ["p1"]⟩ ∈ (matchExact Sample.externalRows Sample.ledgerItems).rows := by
  have hexact := matchExact_exact Sample.externalRows Sample.ledgerItems (by decide) (by decide)
  refine (hexact.1.matched_iff _ List.mem_cons_self _ List.mem_cons_self).1.mpr ?_
  unfold SoleMatch Sample.externalRows Sample.ledgerItems
  decide

end LedgerSync
