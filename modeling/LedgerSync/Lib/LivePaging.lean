import LedgerSync.Lib.Paging

/-!
# Listings that are read while records are added

A reader takes the pages of a listing by key one after another, and between two pages the records
change: some are added, anywhere in the order, and none lose their key. The reader then sees no key
twice, in the order of the listing, and a reader that comes to the last page has seen every record
that was there when it began (`crawl_keyset`).
-/

namespace LedgerSync.Lib

variable {σ β κ α ε key : Type*}

/-- The records that a reader takes from a cursor on, and whether it came to the last page. Before
each page, which has a size, the state advances. -/
def crawl [DecidableEq κ] (advance : σ → β → σ) (list : σ → κ → ℕ → Except ε (List α × κ))
    (start : κ) : List (β × ℕ) → σ → κ → Except ε (List α × Bool)
  | [], _, _ => .ok ([], false)
  | (b, n) :: pages, s, cursor =>
    match list (advance s b) cursor n with
    | .error e => .error e
    | .ok (items, next) =>
      if next = start then .ok (items, true)
      else match crawl advance list start pages (advance s b) next with
        | .error e => .error e
        | .ok (more, finished) => .ok (items ++ more, finished)

/-- A listing by key of the records of a state: in every state where `I` holds they are in strict
order, the cursors say what they stand for, and advancing to another such state keeps their keys. A
page may fail, and is never one of no record at all. -/
structure LiveListing (r : key → key → Prop) [DecidableRel r] (advance : σ → β → σ)
    (list : σ → κ → ℕ → Except ε (List α × κ)) (start : κ) (keyOf : α → key) (rows : σ → List α)
    (I : σ → Prop) where
  decode : κ → Except ε (Option key)
  encode : α → κ
  page : ∀ s, I s → ∀ cursor n x, list s cursor n = .ok x →
    0 < n ∧ keysetPage r start decode encode keyOf (rows s) cursor n = .ok x
  sorted : ∀ s, I s → (rows s).Pairwise fun a b => r (keyOf a) (keyOf b)
  grows : ∀ s b, I s → I (advance s b) → ∀ a ∈ rows s, ∃ x ∈ rows (advance s b), keyOf x = keyOf a
  decode_start : decode start = .ok none
  decode_encode : ∀ s, I s → ∀ a ∈ rows s, decode (encode a) = .ok (some (keyOf a))

section Crawl

variable {r : key → key → Prop} [DecidableRel r] {advance : σ → β → σ}
  {list : σ → κ → ℕ → Except ε (List α × κ)} {start : κ} {keyOf : α → key} {rows : σ → List α}
  {I : σ → Prop}

/-- The records of a list that come behind a position. -/
def behind (r : key → key → Prop) [DecidableRel r] (keyOf : α → key) (position : Option key)
    (l : List α) : List α :=
  l.filter fun a => position.all fun k => r k (keyOf a)

/-- What is behind a position is in the list and after it. -/
theorem mem_behind {position : Option key} {l : List α} {a : α} :
    a ∈ behind r keyOf position l ↔ a ∈ l ∧ ∀ k, position = some k → r k (keyOf a) := by
  rw [behind, List.mem_filter]
  cases position <;> simp

omit [DecidableRel r] in
/-- Where a strictly ordered list is cut behind a record, the records in front of the cut are not
behind it in the order, and those behind the cut are. -/
theorem pairwise_cut [IsStrictOrder key r] {front rest : List α} {a : α}
    (h : ((front ++ [a]) ++ rest).Pairwise fun a b => r (keyOf a) (keyOf b)) :
    (∀ x ∈ front ++ [a], ∀ y, r (keyOf a) (keyOf y) → r (keyOf x) (keyOf y)) ∧
      ∀ y ∈ rest, r (keyOf a) (keyOf y) := by
  obtain ⟨hfront, -, hcross⟩ := List.pairwise_append.mp h
  refine ⟨fun x hx y hay => ?_, hcross a (List.mem_append_right _ (List.mem_singleton_self a))⟩
  rcases List.mem_append.mp hx with hx | hx
  · have hxa := (List.pairwise_append.mp hfront).2.2 x hx a (List.mem_singleton_self a)
    exact trans_of r hxa hay
  · rwa [List.mem_singleton.mp hx]

/-- A page is followed by the start, and then no records are left, or by the cursor of its last
record. -/
theorem LiveListing.page_cases (L : LiveListing r advance list start keyOf rows I) {s : σ}
    (hs : I s) {cursor : κ} {position : Option key} (hcursor : L.decode cursor = .ok position)
    {n : ℕ} {items : List α} {next : κ} (h : list s cursor n = .ok (items, next)) :
    (items = behind r keyOf position (rows s) ∧ next = start) ∨
      ∃ front a rest, behind r keyOf position (rows s) = (front ++ [a]) ++ rest ∧
        items = front ++ [a] ∧ next ≠ start ∧ L.decode next = .ok (some (keyOf a)) := by
  obtain ⟨hn, hpage⟩ := L.page s hs _ _ _ h
  have hfound := hpage.symm.trans (keysetPage_of_rest hcursor rfl)
  change Except.ok (items, next) = .ok ((behind r keyOf position (rows s)).take n,
    if n < (behind r keyOf position (rows s)).length then
      (((behind r keyOf position (rows s)).take n).getLast?.map L.encode).getD start
    else start) at hfound
  rw [Except.ok.injEq, Prod.mk.injEq] at hfound
  obtain ⟨rfl, rfl⟩ := hfound
  -- Either the rest fits on the page, or the page ends with a row to go on from.
  by_cases hmore : n < (behind r keyOf position (rows s)).length
  swap
  · exact .inl ⟨List.take_of_length_le (Nat.le_of_not_lt hmore), if_neg hmore⟩
  obtain ⟨front, a, hlast⟩ : ∃ front a,
      (behind r keyOf position (rows s)).take n = front ++ [a] := by
    have hne : (behind r keyOf position (rows s)).take n ≠ [] := by
      rw [← List.length_pos_iff, List.length_take]
      omega
    exact ⟨_, _, (List.dropLast_append_getLast hne).symm⟩
  have hsplit : behind r keyOf position (rows s) =
      (front ++ [a]) ++ (behind r keyOf position (rows s)).drop n := by
    conv_lhs => rw [← List.take_append_drop n (behind r keyOf position (rows s)), hlast]
  have ha : a ∈ rows s := by
    have hmem : a ∈ behind r keyOf position (rows s) := by
      rw [hsplit]
      exact List.mem_append_left _ (List.mem_append_right _ (List.mem_singleton_self a))
    exact (mem_behind.mp hmem).1
  -- The cursor decodes to the key of that row.
  have hdecode := L.decode_encode s hs a ha
  rw [if_pos hmore, hlast, List.getLast?_append_cons, List.getLast?_singleton, Option.map_some,
    Option.getD_some]
  refine .inr ⟨front, a, _, hsplit, rfl, fun heq => ?_, hdecode⟩
  rw [heq, L.decode_start] at hdecode
  cases hdecode

/-- **A reader of a growing listing loses and repeats nothing.** -/
theorem crawl_keyset [DecidableEq κ] [IsStrictOrder key r]
    (L : LiveListing r advance list start keyOf rows I) {pages : List (β × ℕ)} {s : σ}
    (hI : ∀ earlier, earlier <+: pages.map Prod.fst → I (earlier.foldl advance s)) {cursor : κ}
    {position : Option key} (hcursor : L.decode cursor = .ok position) {items : List α}
    {finished : Bool} (h : crawl advance list start pages s cursor = .ok (items, finished)) :
    items.Pairwise (fun a b => r (keyOf a) (keyOf b)) ∧
      (∀ a ∈ items, (∀ k, position = some k → r k (keyOf a)) ∧
        ∃ earlier, earlier <+: pages.map Prod.fst ∧ a ∈ rows (earlier.foldl advance s)) ∧
      (finished = true → ∀ a ∈ behind r keyOf position (rows s), keyOf a ∈ items.map keyOf) := by
  induction pages generalizing s cursor position items finished with
  | nil =>
    rw [crawl, Except.ok.injEq, Prod.mk.injEq] at h
    obtain ⟨rfl, rfl⟩ := h
    exact ⟨.nil, fun a ha => (by cases ha), fun hfinished => (by cases hfinished)⟩
  | cons page pages ih =>
    obtain ⟨b, n⟩ := page
    have hs : I s := hI [] List.nil_prefix
    have hI' : ∀ earlier, earlier <+: pages.map Prod.fst →
        I (earlier.foldl advance (advance s b)) := fun earlier h =>
      hI (b :: earlier) (List.cons_prefix_cons.mpr ⟨rfl, h⟩)
    have hs' : I (advance s b) := hI' [] List.nil_prefix
    have hsorted : (behind r keyOf position (rows (advance s b))).Pairwise
        fun a b => r (keyOf a) (keyOf b) := (L.sorted _ hs').filter _
    -- What was there before the state advanced is still there.
    have hgrown : ∀ a ∈ behind r keyOf position (rows s), ∃ x ∈ behind r keyOf position
        (rows (advance s b)), keyOf x = keyOf a := by
      intro a ha
      obtain ⟨hrow, hbehind⟩ := mem_behind.mp ha
      obtain ⟨x, hx, hkey⟩ := L.grows s b hs hs' a hrow
      exact ⟨x, mem_behind.mpr ⟨hx, fun k hk => hkey ▸ hbehind k hk⟩, hkey⟩
    have hhere : ∀ a ∈ behind r keyOf position (rows (advance s b)),
        (∀ k, position = some k → r k (keyOf a)) ∧
          ∃ earlier, earlier <+: b :: pages.map Prod.fst ∧ a ∈ rows (earlier.foldl advance s) :=
      fun a ha => ⟨(mem_behind.mp ha).2, [b], List.cons_prefix_cons.mpr ⟨rfl, List.nil_prefix⟩,
        (mem_behind.mp ha).1⟩
    rw [crawl] at h
    rcases hlist : list (advance s b) cursor n with e | ⟨first, next⟩
    · rw [hlist] at h
      cases h
    -- The page is the last one, or the crawl goes on behind its last row.
    rcases L.page_cases hs' hcursor hlist with ⟨rfl, rfl⟩ | ⟨front, a, rest, hsplit, rfl, hnext,
      hdecode⟩
    · simp only [hlist, if_true, Except.ok.injEq, Prod.mk.injEq] at h
      obtain ⟨rfl, rfl⟩ := h
      refine ⟨hsorted, hhere, fun _ x hx => ?_⟩
      obtain ⟨y, hy, hkey⟩ := hgrown x hx
      exact hkey ▸ List.mem_map_of_mem hy
    simp only [hlist, if_neg hnext] at h
    rcases hcrawl : crawl advance list start pages (advance s b) next with e | ⟨more, last⟩
    · rw [hcrawl] at h
      cases h
    simp only [hcrawl, Except.ok.injEq, Prod.mk.injEq] at h
    obtain ⟨rfl, rfl⟩ := h
    obtain ⟨hmore, hfrom, hall⟩ := ih hI' hdecode hcrawl
    rw [hsplit] at hsorted
    -- Later pages lie behind this one.
    obtain ⟨hbefore, hlater⟩ := pairwise_cut hsorted
    refine ⟨?_, fun x hx => ?_, fun hfinished x hx => ?_⟩
    · exact List.pairwise_append.mpr ⟨(List.pairwise_append.mp hsorted).1, hmore,
        fun x hx y hy => hbefore x hx y ((hfrom y hy).1 _ rfl)⟩
    · rcases List.mem_append.mp hx with hx | hx
      · exact hhere x (hsplit ▸ List.mem_append_left _ hx)
      · obtain ⟨hbehind, earlier, hinit, hrow⟩ := hfrom x hx
        have ha := (hhere a (hsplit ▸ List.mem_append_left _
          (List.mem_append_right _ (List.mem_singleton_self a)))).1
        exact ⟨fun k hk => trans_of r (ha k hk) (hbehind _ rfl), b :: earlier,
          List.cons_prefix_cons.mpr ⟨rfl, hinit⟩, hrow⟩
    · obtain ⟨y, hy, hkey⟩ := hgrown x hx
      rw [List.map_append, List.mem_append, ← hkey]
      rw [hsplit] at hy
      rcases List.mem_append.mp hy with hfront | hrest
      · exact .inl (List.mem_map_of_mem hfront)
      · refine .inr (hall hfinished y (mem_behind.mpr ⟨?_, fun k hk => ?_⟩))
        · have hmem : y ∈ behind r keyOf position (rows (advance s b)) := by
            rw [hsplit]
            exact List.mem_append_right _ hrest
          exact (mem_behind.mp hmem).1
        · rw [← Option.some.inj hk]
          exact hlater y hrest

end Crawl

end LedgerSync.Lib
