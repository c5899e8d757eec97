import Mathlib.Data.Finset.Card
import Mathlib.Data.List.Basic
import Mathlib.Order.Defs.Unbundled

/-!
# Listings in pages

A listing hands out records page by page: every page comes with a cursor for the next one, and a
distinguished cursor both asks for the first page and says that no page follows. A listing delivers
a list of records when its pages, one after another, are that list (`Delivers`); the last page may
come with a further cursor, behind which there is an empty page. A listing that announces its end
never does that (`Announces`). A listing that looks one record ahead and continues behind the key of
the last record of a page announces the end of a list that is strictly ordered by the key
(`announces_keyset`). Where several records have one key, the first of each can be kept
(`firstByKey`).
-/

namespace LedgerSync.Lib

variable {κ α ε : Type*}

/-- From `cursor` on, the pages of `list` are `records`. A page without records is the last one, and
so is one that comes with `start`. -/
def DeliversFrom (start : κ) (list : κ → ℕ → Except ε (List α × κ)) (cursor : κ)
    (records : List α) : Prop :=
  ∃ precedes : κ → List α → Prop, precedes cursor records ∧
    ∀ c rest n, precedes c rest → 0 < n → ∃ items next behind,
      list c n = .ok (items, next) ∧ rest = items ++ behind ∧ items.length ≤ n ∧
        (items = [] → behind = []) ∧ (next = start → behind = []) ∧
          (items ≠ [] → next ≠ start → next ≠ c ∧ precedes next behind)

/-- The pages of `list` are `records`. -/
def Delivers (start : κ) (list : κ → ℕ → Except ε (List α × κ)) (records : List α) : Prop :=
  DeliversFrom start list start records

/-- From `cursor` on, the pages of `list` are `records`, and the last of them comes with `start`. -/
def AnnouncesFrom (start : κ) (list : κ → ℕ → Except ε (List α × κ)) (cursor : κ)
    (records : List α) : Prop :=
  ∃ precedes : κ → List α → Prop, precedes cursor records ∧
    ∀ c rest n, precedes c rest → 0 < n → ∃ items next behind,
      list c n = .ok (items, next) ∧ rest = items ++ behind ∧ items.length ≤ n ∧
        (items = [] → behind = []) ∧ (next = start ↔ behind = []) ∧
          (behind ≠ [] → next ≠ c ∧ precedes next behind)

/-- The pages of `list` are `records`, and the last of them comes with `start`. -/
def Announces (start : κ) (list : κ → ℕ → Except ε (List α × κ)) (records : List α) : Prop :=
  AnnouncesFrom start list start records

/-- The cursor at which a reader stops who takes `room` records from `cursor` on, at most `size` of
them with a page; `start` when the listing ends before, or on the last of them. -/
def stopCursor [DecidableEq κ] (start : κ) (list : κ → ℕ → Except ε (List α × κ)) (size room : ℕ)
    (cursor : κ) : κ :=
  if room = 0 then cursor
  else match list cursor (min size room) with
    | .error _ => start
    | .ok (items, next) =>
      if items = [] ∨ next = start then start
      else stopCursor start list size (room - items.length) next
termination_by room
decreasing_by
  rename_i hroom hgo
  have hpos := List.length_pos_iff.mpr (not_or.mp hgo).1
  omega

variable {start : κ} {list : κ → ℕ → Except ε (List α × κ)} {cursor : κ} {records : List α}

/-- One page of a listing: some of the records, and the rest is delivered from the next cursor on.
-/
theorem DeliversFrom.page (h : DeliversFrom start list cursor records) {n : ℕ} (hn : 0 < n) :
    ∃ items next behind, list cursor n = .ok (items, next) ∧ records = items ++ behind ∧
      items.length ≤ n ∧ (items = [] → behind = []) ∧ (next = start → behind = []) ∧
        (items ≠ [] → next ≠ start → next ≠ cursor ∧ DeliversFrom start list next behind) := by
  obtain ⟨precedes, hcursor, hpages⟩ := h
  obtain ⟨items, next, behind, hlist, hrecords, hlength, hempty, hlast, hmore⟩ :=
    hpages cursor records n hcursor hn
  exact ⟨items, next, behind, hlist, hrecords, hlength, hempty, hlast,
    fun hitems hne => ⟨(hmore hitems hne).1, precedes, (hmore hitems hne).2, hpages⟩⟩

/-- A listing that reports its errors differently delivers the same records. -/
theorem DeliversFrom.mapError {φ : Type*} (h : DeliversFrom start list cursor records) (f : ε → φ) :
    DeliversFrom start (fun c n => (list c n).mapError f) cursor records := by
  obtain ⟨precedes, hcursor, hpages⟩ := h
  refine ⟨precedes, hcursor, fun c rest n hc hn => ?_⟩
  obtain ⟨items, next, behind, hlist, hpage⟩ := hpages c rest n hc hn
  exact ⟨items, next, behind, by simp only [hlist, Except.mapError], hpage⟩

/-- A listing that announces its end delivers its records. -/
theorem AnnouncesFrom.delivers (h : AnnouncesFrom start list cursor records) :
    DeliversFrom start list cursor records := by
  obtain ⟨precedes, hcursor, hpages⟩ := h
  refine ⟨precedes, hcursor, fun c rest n hc hn => ?_⟩
  obtain ⟨items, next, behind, hlist, hrest, hlength, hempty, hlast, hmore⟩ := hpages c rest n hc hn
  exact ⟨items, next, behind, hlist, hrest, hlength, hempty, hlast.mp,
    fun _ hne => hmore (mt hlast.mpr hne)⟩

section StopCursor

variable [DecidableEq κ] {size room : ℕ}

/-- A reader who takes no record stays where it is. -/
theorem stopCursor_zero : stopCursor start list size 0 cursor = cursor := by
  rw [stopCursor, if_pos rfl]

/-- A reader who takes records goes on behind the page, or the listing ends there. -/
theorem stopCursor_page {items : List α} {next : κ} (hroom : 0 < room)
    (hlist : list cursor (min size room) = .ok (items, next)) :
    stopCursor start list size room cursor =
      if items = [] ∨ next = start then start
      else stopCursor start list size (room - items.length) next := by
  rw [stopCursor, if_neg hroom.ne', hlist]

/-- A listing that reports its errors differently is read to the same cursor. -/
theorem stopCursor_mapError {φ : Type*} (f : ε → φ) :
    stopCursor start (fun c n => (list c n).mapError f) size room cursor =
      stopCursor start list size room cursor := by
  fun_induction stopCursor start list size room cursor with
  | case1 => exact stopCursor_zero
  | case2 room cursor hroom e hlist =>
    rw [stopCursor, if_neg hroom, hlist]
    rfl
  | case3 room cursor hroom items next hlist hlast =>
    rw [stopCursor_page (Nat.pos_of_ne_zero hroom) (by rw [hlist]; rfl), if_pos hlast]
  | case4 room cursor hroom items next hlist hgo ih =>
    rw [stopCursor_page (Nat.pos_of_ne_zero hroom) (by rw [hlist]; rfl), if_neg hgo, ih]

/-- Who takes all records of a listing that announces its end stops at `start`. -/
theorem AnnouncesFrom.stopCursor (h : AnnouncesFrom start list cursor records) (hsize : 0 < size)
    (hroom : 0 < room) (hall : records.length ≤ room) :
    Lib.stopCursor start list size room cursor = start := by
  obtain ⟨precedes, hcursor, hpages⟩ := h
  induction room using Nat.strong_induction_on generalizing cursor records with
  | _ room ih =>
    obtain ⟨items, next, behind, hlist, rfl, hlength, hempty, hlast, hmore⟩ :=
      hpages cursor records (min size room) hcursor (by omega)
    rw [stopCursor_page hroom hlist]
    by_cases hbehind : behind = []
    · rw [if_pos (.inr (hlast.mpr hbehind))]
    · -- Records are left, so this page was not empty and there is room behind it.
      have hitems : items ≠ [] := fun hnil => hbehind (hempty hnil)
      have hpos := List.length_pos_iff.mpr hitems
      have hleft := List.length_pos_iff.mpr hbehind
      rw [List.length_append] at hall
      rw [if_neg (not_or.mpr ⟨hitems, fun heq => hbehind (hlast.mp heq)⟩)]
      exact ih (room - items.length) (by omega) (by omega) (by omega) (hmore hbehind).2

end StopCursor

/-! ## Listings by key -/

section Keyset

variable {key : Type*} {r : key → key → Prop} [DecidableRel r]

/-- A page of the records of `rows` whose key comes behind that of the cursor in the order `r`. One
record more than asked for is looked at, to tell whether another page follows. -/
def keysetPage (r : key → key → Prop) [DecidableRel r] (start : κ)
    (decode : κ → Except ε (Option key)) (encode : α → κ) (keyOf : α → key) (rows : List α)
    (cursor : κ) (n : ℕ) : Except ε (List α × κ) :=
  (decode cursor).map fun position : Option key =>
    let found := (rows.filter fun a => position.all fun k => r k (keyOf a)).take (n + 1)
    if n < found.length then
      (found.take n, ((found.take n).getLast?.map encode).getD start)
    else (found, start)

/-- In a strictly ordered list the records behind a record are those behind its key. -/
theorem filter_behind [IsStrictOrder key r] {keyOf : α → key} {front behind : List α} {a : α}
    (h : (front ++ a :: behind).Pairwise fun a b => r (keyOf a) (keyOf b)) :
    ((front ++ a :: behind).filter fun b => (some (keyOf a)).all fun k => r k (keyOf b)) =
      behind := by
  obtain ⟨-, hcons, hcross⟩ := List.pairwise_append.mp h
  have hlater := (List.pairwise_cons.mp hcons).1
  have hfront : front.filter (fun b => (some (keyOf a)).all fun k => r k (keyOf b)) = [] := by
    rw [List.filter_eq_nil_iff]
    intro b hb
    have hbefore := hcross b hb a List.mem_cons_self
    simpa using asymm hbefore
  have hbehind : behind.filter (fun b => (some (keyOf a)).all fun k => r k (keyOf b)) = behind := by
    rw [List.filter_eq_self]
    intro b hb
    simpa using hlater b hb
  rw [List.filter_append, List.filter_cons_of_neg (by simpa using irrefl (keyOf a)), hfront, hbehind,
    List.nil_append]

/-- One page of a listing by key, of the records `rest` that are behind the cursor. -/
theorem keysetPage_of_rest {decode : κ → Except ε (Option key)} {encode : α → κ} {keyOf : α → key}
    {rows rest : List α} {position : Option key} {n : ℕ} (hdecode : decode cursor = .ok position)
    (hrest : (rows.filter fun a => position.all fun k => r k (keyOf a)) = rest) :
    keysetPage r start decode encode keyOf rows cursor n =
      .ok (rest.take n, if n < rest.length then ((rest.take n).getLast?.map encode).getD start
        else start) := by
  unfold keysetPage
  simp only [hdecode, Except.map, hrest]
  by_cases hn : n < rest.length
  · have hmore : n < (rest.take (n + 1)).length := by
      rw [List.length_take]
      omega
    rw [if_pos hmore, if_pos hn, List.take_take, Nat.min_eq_left (Nat.le_succ n)]
  · have hall : rest.take (n + 1) = rest := List.take_of_length_le (by omega)
    simp [hall, hn, List.take_of_length_le (Nat.le_of_not_lt hn)]

/-- **A listing by key loses and repeats nothing**, and announces its end. -/
theorem announces_keyset [IsStrictOrder key r] {decode : κ → Except ε (Option key)} {encode : α → κ}
    {keyOf : α → key} {rows : List α} (hsorted : rows.Pairwise fun a b => r (keyOf a) (keyOf b))
    (hstart : decode start = .ok none)
    (hencode : ∀ a ∈ rows, decode (encode a) = .ok (some (keyOf a))) :
    Announces start (keysetPage r start decode encode keyOf rows) rows := by
  -- a cursor precedes all the records, or those behind the record whose key it is
  refine ⟨fun c rest => (c = start ∧ rest = rows) ∨
    ∃ front a, rows = front ++ a :: rest ∧ c = encode a, .inl ⟨rfl, rfl⟩, ?_⟩
  intro c rest n hc hn
  obtain ⟨front, hrows, position, hdecode, hrest⟩ : ∃ front, rows = front ++ rest ∧ ∃ position,
      decode c = .ok position ∧
        (rows.filter fun a => position.all fun k => r k (keyOf a)) = rest := by
    rcases hc with ⟨rfl, rfl⟩ | ⟨front, a, hrows, rfl⟩
    · exact ⟨[], rfl, none, hstart, List.filter_eq_self.mpr fun _ _ => rfl⟩
    · refine ⟨front ++ [a], by rw [hrows, List.append_assoc, List.singleton_append], _,
        hencode a (hrows ▸ List.mem_append_right _ List.mem_cons_self), ?_⟩
      rw [hrows] at hsorted ⊢
      exact filter_behind hsorted
  have hne_start : ∀ a ∈ rows, encode a ≠ start := by
    intro a ha heq
    have hboth := (hencode a ha).symm.trans (heq ▸ hstart)
    cases hboth
  refine ⟨rest.take n, _, rest.drop n, keysetPage_of_rest hdecode hrest,
    (List.take_append_drop n rest).symm, List.length_take_le n rest, ?_, ?_⟩
  · intro hempty
    rcases List.take_eq_nil_iff.mp hempty with h | h
    · omega
    · rw [h, List.drop_nil]
  by_cases hmore : n < rest.length
  swap
  · rw [if_neg hmore, List.drop_of_length_le (Nat.le_of_not_lt hmore)]
    exact ⟨iff_of_true rfl rfl, fun h => absurd rfl h⟩
  -- the cursor of a page that is not the last is the key of its last record
  obtain ⟨init, a, hlast⟩ : ∃ init a, rest.take n = init ++ [a] := by
    have hne : rest.take n ≠ [] := by
      rw [← List.length_pos_iff, List.length_take]
      omega
    exact ⟨_, _, (List.dropLast_append_getLast hne).symm⟩
  have hdrop : rest.drop n ≠ [] := by
    rw [← List.length_pos_iff, List.length_drop]
    omega
  have hsplit : rest = init ++ a :: rest.drop n := by
    conv_lhs => rw [← List.take_append_drop n rest, hlast]
    rw [List.append_assoc, List.singleton_append]
  have hrest_mem : a ∈ rest := by
    rw [hsplit]
    exact List.mem_append_right _ List.mem_cons_self
  have hmem : a ∈ rows := hrows ▸ List.mem_append_right _ hrest_mem
  rw [if_pos hmore, hlast, List.getLast?_append_cons, List.getLast?_singleton, Option.map_some,
    Option.getD_some]
  refine ⟨iff_of_false (hne_start a hmem) hdrop, fun _ => ⟨?_, .inr ⟨front ++ init, a, ?_, rfl⟩⟩⟩
  · rintro rfl
    rcases hc with ⟨heq, -⟩ | ⟨before, b, hsame, heq⟩
    · exact hne_start a hmem heq
    · have hb : b ∈ rows := hsame ▸ List.mem_append_right _ List.mem_cons_self
      have hkeys : keyOf a = keyOf b := by
        have hboth := (hencode a hmem).symm.trans (heq ▸ hencode b hb)
        exact Option.some.inj (Except.ok.inj hboth)
      rw [hsame] at hsorted
      have hlater := (List.pairwise_cons.mp (List.pairwise_append.mp hsorted).2.1).1 a hrest_mem
      rw [hkeys] at hlater
      exact irrefl _ hlater
  · rw [hrows, List.append_assoc, ← hsplit]

end Keyset

/-! ## Records told apart by a key -/

section FirstByKey

variable {key : Type*} [DecidableEq key] (keyOf : α → key)

/-- A record is added behind the others unless one of them has its key. -/
def addByKey (kept : List α) (a : α) : List α :=
  if keyOf a ∈ kept.map keyOf then kept else kept ++ [a]

/-- The first record of each key, in order. -/
def firstByKey (rows : List α) : List α := rows.foldl (addByKey keyOf) []

variable {keyOf}

/-- Adding an item adds its key. -/
theorem mem_map_addByKey {kept : List α} {a : α} {k : key} :
    k ∈ (addByKey keyOf kept a).map keyOf ↔ k ∈ kept.map keyOf ∨ k = keyOf a := by
  unfold addByKey
  split_ifs with h
  · constructor
    · exact .inl
    · rintro (hk | rfl)
      · exact hk
      · exact h
  · rw [List.map_append, List.mem_append, List.map_singleton, List.mem_singleton]

/-- Adding an item adds no key twice. -/
theorem nodup_addByKey {kept : List α} (a : α) (h : (kept.map keyOf).Nodup) :
    ((addByKey keyOf kept a).map keyOf).Nodup := by
  unfold addByKey
  split_ifs with hmem
  · exact h
  · rw [List.map_append, List.map_singleton]
    exact List.nodup_append.mpr ⟨h, List.nodup_singleton _,
      fun x hx y hy heq => hmem (List.mem_singleton.mp hy ▸ heq ▸ hx)⟩

/-- Adding the items of a page adds their keys, none of them twice. -/
theorem foldl_addByKey (rows kept : List α) :
    (∀ k, k ∈ (rows.foldl (addByKey keyOf) kept).map keyOf ↔
      k ∈ kept.map keyOf ∨ k ∈ rows.map keyOf) ∧
    ((kept.map keyOf).Nodup → ((rows.foldl (addByKey keyOf) kept).map keyOf).Nodup) := by
  induction rows generalizing kept with
  | nil => exact ⟨fun k => by simp, fun h => h⟩
  | cons a rows ih =>
    obtain ⟨hkeys, hnodup⟩ := ih (addByKey keyOf kept a)
    refine ⟨fun k => ?_, fun h => hnodup (nodup_addByKey a h)⟩
    rw [List.foldl_cons, hkeys, mem_map_addByKey, List.map_cons, List.mem_cons, or_assoc]

/-- The keys of the records that are kept are those of all of them. -/
theorem mem_map_firstByKey {rows : List α} {k : key} :
    k ∈ (firstByKey keyOf rows).map keyOf ↔ k ∈ rows.map keyOf := by
  rw [firstByKey, (foldl_addByKey rows []).1, List.map_nil]
  exact or_iff_right List.not_mem_nil

/-- No two records that are kept have one key. -/
theorem nodup_firstByKey (rows : List α) : ((firstByKey keyOf rows).map keyOf).Nodup :=
  (foldl_addByKey rows []).2 List.nodup_nil

/-- As many records are kept as there are keys. -/
theorem length_firstByKey (rows : List α) :
    (firstByKey keyOf rows).length = (rows.map keyOf).toFinset.card := by
  rw [← List.length_map (f := keyOf), ← List.toFinset_card_of_nodup (nodup_firstByKey rows)]
  congr 1
  ext k
  rw [List.mem_toFinset, List.mem_toFinset, mem_map_firstByKey]

/-- Keys that tell the same records apart keep the same ones. -/
theorem firstByKey_congr {key' : Type*} [DecidableEq key'] {keyOf' : α → key'} {rows : List α}
    (h : ∀ a ∈ rows, ∀ b ∈ rows, keyOf a = keyOf b ↔ keyOf' a = keyOf' b) :
    firstByKey keyOf rows = firstByKey keyOf' rows := by
  -- The rows that are kept stay among those of the list, where both keys agree.
  have hfold : ∀ (later kept : List α), (∀ a ∈ later, a ∈ rows) → (∀ a ∈ kept, a ∈ rows) →
      later.foldl (addByKey keyOf) kept = later.foldl (addByKey keyOf') kept := by
    intro later
    induction later with
    | nil => exact fun _ _ _ => rfl
    | cons a later ih =>
      intro kept hlater hkept
      have ha := hlater a List.mem_cons_self
      have hstep : addByKey keyOf kept a = addByKey keyOf' kept a := by
        have hmem : keyOf a ∈ kept.map keyOf ↔ keyOf' a ∈ kept.map keyOf' := by
          rw [List.mem_map, List.mem_map]
          exact exists_congr fun b => and_congr_right fun hb => h b (hkept b hb) a ha
        unfold addByKey
        simp only [hmem]
      have hgrown : ∀ b ∈ addByKey keyOf' kept a, b ∈ rows := by
        intro b hb
        unfold addByKey at hb
        split_ifs at hb
        · exact hkept b hb
        · rcases List.mem_append.mp hb with hb | hb
          · exact hkept b hb
          · rwa [List.mem_singleton.mp hb]
      rw [List.foldl_cons, List.foldl_cons, hstep]
      exact ih _ (fun b hb => hlater b (List.mem_cons_of_mem _ hb)) hgrown
  exact hfold rows [] (fun _ ha => ha) (fun _ ha => absurd ha List.not_mem_nil)

end FirstByKey

end LedgerSync.Lib
