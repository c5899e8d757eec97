import LedgerSync.Journals
import LedgerSync.ReconciliationEffects

/-!
# Statement evidence

Matches and review events are evidence: rows are added and none is changed. Over whole histories, a
row and a posting are matched at most once and with the same money, and the events of a review item
are its versions (`evidence_consumed_once`).
-/

namespace LedgerSync

open Lib

/-! ## Tables only grow -/

/-- Two states of a run: it is of the same import, and once completed it stays so. -/
structure StatementRun.Same (r r' : StatementRun) : Prop where
  importId : r'.importId = r.importId
  mappingId : r'.mappingId = r.mappingId
  completed : r.state = .completed → r'.state = .completed

/-- A run is the same as itself. -/
theorem StatementRun.Same.refl (r : StatementRun) : r.Same r := ⟨rfl, rfl, fun h => h⟩

/-- Every row that was there is there still. -/
structure StatementDb.Extends (s s' : StatementDb) : Prop where
  imports : ∀ {k x}, s.imports.find? k = some x → s'.imports.find? k = some x
  rows : ∀ {k x}, s.statementRows.find? k = some x → s'.statementRows.find? k = some x
  runs : ∀ {k x}, s.runs.find? k = some x → ∃ x', s'.runs.find? k = some x' ∧ x.Same x'
  items : ∀ {k x}, s.snapshotItems.find? k = some x → s'.snapshotItems.find? k = some x
  postings : ∀ {k x}, s.ledger.postings.find? k = some x → s'.ledger.postings.find? k = some x
  recorded : ∀ {m}, m ∈ s.statementMatches → m ∈ s'.statementMatches

/-- Every database extends itself. -/
theorem StatementDb.Extends.refl (s : StatementDb) : s.Extends s where
  imports h := h
  rows h := h
  runs h := ⟨_, h, .refl _⟩
  items h := h
  postings h := h
  recorded h := h

/-- Extensions compose. -/
theorem StatementDb.Extends.trans {s s₁ s' : StatementDb} (h : s.Extends s₁) (h' : s₁.Extends s') :
    s.Extends s' where
  imports hx := h'.imports (h.imports hx)
  rows hx := h'.rows (h.rows hx)
  runs hx := by
    obtain ⟨x₁, hx₁, hsame⟩ := h.runs hx
    obtain ⟨x', hx', hsame'⟩ := h'.runs hx₁
    exact ⟨x', hx', hsame'.importId.trans hsame.importId, hsame'.mappingId.trans hsame.mappingId,
      fun hc => hsame'.completed (hsame.completed hc)⟩
  items hx := h'.items (h.items hx)
  postings hx := h'.postings (h.postings hx)
  recorded hm := h'.recorded (h.recorded hm)

section Growth

variable {env : StatementEnv} {s s' : StatementDb}

/-- Writing none of the tables. -/
theorem StatementDb.Extends.of_eq (himports : s'.imports = s.imports)
    (hrows : s'.statementRows = s.statementRows) (hruns : s'.runs = s.runs)
    (hitems : s'.snapshotItems = s.snapshotItems)
    (hpostings : s'.ledger.postings = s.ledger.postings)
    (hmatches : s'.statementMatches = s.statementMatches) : s.Extends s' where
  imports h := himports ▸ h
  rows h := hrows ▸ h
  runs h := ⟨_, hruns ▸ h, .refl _⟩
  items h := hitems ▸ h
  postings h := hpostings ▸ h
  recorded h := hmatches ▸ h

/-- A command that only notes something extends the database. -/
theorem StatementDb.Noted.extends (h : s.Noted s') : s.Extends s' := by
  rw [h]
  exact .of_eq rfl rfl rfl rfl rfl rfl

/-- Postings that were stored stay as they are. -/
theorem Change.posting_kept {d : Digest} {l l' : Db} (h : Change d l l') {i : Uuid} {q : Posting}
    (hq : l.postings.find? i = some q) : l'.postings.find? i = some q := by
  rcases h.journal with ⟨-, hsame⟩ | ⟨j, _, _, _, _, hw⟩
  · rw [hsame]
    exact hq
  · obtain ⟨_, _, _, hpair⟩ := hw.pair
    obtain ⟨t, h₁, h₂⟩ := hpair.rows
    exact Table.find?_insert?_of_some h₂ (Table.find?_insert?_of_some h₁ hq)

/-- A new match extends the database. -/
theorem extends_insert_match {m : StatementMatch} {t : Table StatementMatch.id}
    (h : s.statementMatches.insert? m = some t) : s.Extends { s with statementMatches := t } :=
  { StatementDb.Extends.refl s with recorded := fun hm => (Table.mem_insert? h).mpr (.inr hm) }

/-- Advancing an item extends the database. -/
theorem Advanced.extends {item next : ReviewItem} (h : Advanced item next s s') : s.Extends s' := by
  obtain ⟨_, _, _, -, -, -, -, -, rfl⟩ := h
  exact .of_eq rfl rfl rfl rfl rfl rfl

/-- The work on one row extends the database. -/
theorem RowDone.extends {run : StatementRun} {actor : String} {ids : CompleteIds} {r : ImportedRow}
    (h : RowDone run actor ids r s s') : s.Extends s' := by
  cases h with
  | left => exact .of_eq rfl rfl rfl rfl rfl rfl
  | matched _ _ recorded =>
    exact (extends_insert_match recorded).trans (.of_eq rfl rfl rfl rfl rfl rfl)

/-- The work on the rows extends the database. -/
theorem RowsDone.extends {run : StatementRun} {actor : String} {ids : CompleteIds}
    {l : List ImportedRow} (h : RowsDone run actor ids l s s') : s.Extends s' := by
  induction h with
  | nil => exact .refl _
  | snoc _ row ih => exact ih.trans row.extends

/-- Completing a run extends the database. -/
theorem RunCompleted.extends {run : StatementRun} {actor : String} {ids : CompleteIds}
    {rows : List ImportedRow} {mid : StatementDb} (h : RunCompleted s s' run actor ids rows mid) :
    s.Extends s' := by
  refine h.loop.extends.trans ?_
  obtain ⟨result, hruns⟩ := h.runs
  rw [h.frame]
  refine { StatementDb.Extends.refl mid with runs := fun {k x} hx => ?_ }
  dsimp only
  rw [hruns, Table.find?_update]
  split_ifs with hk
  · subst hk
    rw [hx]
    exact ⟨_, rfl, rfl, rfl, fun _ => rfl⟩
  · exact ⟨x, hx, .refl x⟩

/-- A step of a review extends the database. -/
theorem ReviewStep.extends {p : StatementMeta} {run : StatementRun} {item : ReviewItem}
    {d : ReviewDecision} {ids : ReviewIds} (h : ReviewStep s p run item d ids s') :
    s.Extends s' := by
  cases h with
  | unmatched => exact .refl s
  | again => exact .refl s
  | linked _ h =>
    rcases h.ledger with ⟨-, rfl⟩ | ⟨i, -, hadvanced⟩
    · exact extends_insert_match h.recorded
    · exact (extends_insert_match h.recorded).trans hadvanced.extends

/-- A review extends the database. -/
theorem Reviewed.extends {p : StatementMeta} {run : StatementRun} {item : ReviewItem}
    {d : ReviewDecision} {ids : ReviewIds} {mid : StatementDb}
    (h : Reviewed s s' p run item d ids mid) : s.Extends s' := by
  obtain ⟨_, -, hadvanced⟩ := h.written
  exact h.step.extends.trans hadvanced.extends

/-- A returning command extends the database. -/
theorem StatementEffect.extends {c : StatementCall} (h : StatementEffect env s c s') :
    s.Extends s' := by
  -- Each call only adds rows, or replaces one by a row of the same identity.
  cases h with
  | noted h => exact h.extends
  | ledger h => exact { StatementDb.Extends.refl s with postings := h.change.posting_kept }
  | mapped h noted =>
    refine .trans ?_ noted.extends
    rw [h.frame]
    exact .of_eq rfl rfl rfl rfl rfl rfl
  | imported h noted =>
    refine .trans ?_ noted.extends
    rw [h.frame]
    exact { StatementDb.Extends.refl s with
      imports := Table.find?_insert?_of_some h.imports
      rows := Table.find?_insertAll?_of_some h.rows }
  -- A new run is added with its snapshot.
  | prepared h noted =>
    obtain ⟨i, b, items, -, -, -, -, -, -, hsnapshot⟩ := h.source
    refine .trans ?_ noted.extends
    rw [h.frame]
    exact { StatementDb.Extends.refl s with
      runs := fun hx => ⟨_, Table.find?_insert?_of_some h.runs hx, .refl _⟩
      items := Table.find?_insertAll?_of_some hsnapshot }
  | completed h noted => exact h.extends.trans noted.extends
  | reviewed _ h noted => exact h.extends.trans noted.extends

end Growth

/-! ## Versions -/

/-- The versions that the events of an item report, oldest first. -/
def versionsOf (events : Table ReviewEvent.id) (key : Uuid × ReviewKind × String) : List (ℤ × ℤ) :=
  ((events.rows.filter fun e => e.item = key).reverse).map fun e =>
    ((e.fromVersion : ℤ), (e.toVersion : ℤ))

/-- `(0, 1), (1, 2), …, (n - 1, n)`. -/
def versionSteps (n : ℕ) : List (ℤ × ℤ) := (List.range n).map fun k : ℕ => ((k : ℤ), (k : ℤ) + 1)

/-- The events of every item are its versions, and every event has an item. -/
structure VersionChain (items : Table ReviewItem.key) (events : Table ReviewEvent.id) : Prop where
  chain : ∀ i ∈ items, ∃ n : ℕ, (i.version : ℤ) = n ∧ versionsOf events i.key = versionSteps n
  owned : ∀ e ∈ events, ∃ i ∈ items, i.key = e.item

namespace VersionChain

variable {items items' : Table ReviewItem.key} {events events' : Table ReviewEvent.id}

/-- A new item starts with version zero and no event. -/
theorem insert (h : VersionChain items events) {i : ReviewItem} (hzero : (i.version : ℤ) = 0)
    (hins : items.insert? i = some items') : VersionChain items' events where
  chain x hx := by
    rcases (Table.mem_insert? hins).mp hx with rfl | hx
    · refine ⟨0, hzero, ?_⟩
      have hnone : events.rows.filter (fun e => e.item = x.key) = [] := by
        rw [List.filter_eq_nil_iff]
        intro e he heq
        obtain ⟨y, hy, hkey⟩ := h.owned e he
        exact Table.find?_eq_none.mp (Table.insert?_eq_some.mp hins).1 y hy
          (hkey.trans (of_decide_eq_true heq))
      rw [versionsOf, hnone]
      rfl
    · exact h.chain x hx
  owned e he := by
    obtain ⟨y, hy, hkey⟩ := h.owned e he
    exact ⟨y, (Table.mem_insert? hins).mpr (.inr hy), hkey⟩

/-- New items at version zero have chains without events. -/
theorem insertAll (h : VersionChain items events) {new : List ReviewItem}
    (hzero : ∀ i ∈ new, (i.version : ℤ) = 0) (hins : items.insertAll? new = some items') :
    VersionChain items' events := by
  induction new generalizing items with
  | nil =>
    cases hins
    exact h
  | cons i new ih =>
    obtain ⟨t, h₁, h₂⟩ := Table.insertAll?_cons.mp hins
    exact ih (h.insert (hzero i List.mem_cons_self) h₁)
      (fun x hx => hzero x (List.mem_cons_of_mem _ hx)) h₂

/-- The next version of an item comes with its event. -/
theorem advance (h : VersionChain items events) {item next : ReviewItem} {e : ReviewEvent}
    (hfind : items.find? item.key = some item) (hkey : next.key = item.key)
    (hversion : (next.version : ℤ) = item.version + 1) (hitem : e.item = item.key)
    (hfrom : e.fromVersion = item.version) (hto : (e.toVersion : ℤ) = item.version + 1)
    (hins : events.insert? e = some events') : VersionChain (items.replace next) events' where
  chain x hx := by
    -- The replaced item goes one version further; the other ones keep theirs.
    rcases Table.mem_replace hx with rfl | ⟨hx, hne⟩
    · obtain ⟨n, hn, hversions⟩ := h.chain item (Table.mem_of_find? hfind)
      refine ⟨n + 1, by rw [hversion, hn]; push_cast; rfl, ?_⟩
      unfold versionsOf at hversions ⊢
      rw [(Table.insert?_eq_some.mp hins).2, List.filter_cons_of_pos (by simp [hitem, hkey]),
        List.reverse_cons, List.map_append, hkey, hversions, versionSteps, versionSteps,
        List.range_succ, List.map_append]
      simp [hfrom, hto, hn]
    · obtain ⟨n, hn, hversions⟩ := h.chain x hx
      refine ⟨n, hn, ?_⟩
      -- The new event is of this item, so that the versions of the others are the same list.
      have hother : ¬e.item = x.key := fun heq => hne (heq.symm.trans (hitem.trans hkey.symm))
      unfold versionsOf at hversions ⊢
      rw [(Table.insert?_eq_some.mp hins).2, List.filter_cons_of_neg (by simpa using hother)]
      exact hversions
  owned x hx := by
    -- Every item is still there under its key.
    have hkept : ∀ y ∈ items, ∃ y' ∈ items.replace next, y'.key = y.key := by
      intro y hy
      have hread : (items.replace next).find? y.key = some (if y.key = next.key then next else y) := by
        rw [Table.find?_replace, Table.find?_eq_some.mpr ⟨hy, rfl⟩]
        split_ifs <;> rfl
      exact ⟨_, Table.mem_of_find? hread, Table.key_of_find? hread⟩
    rcases (Table.mem_insert? hins).mp hx with rfl | hx
    · rw [hitem]
      exact hkept item (Table.mem_of_find? hfind)
    · obtain ⟨y, hy, hy'⟩ := h.owned x hx
      rw [← hy']
      exact hkept y hy

end VersionChain

/-! ## Rows, postings and matches -/

/-- The row or posting of a review item belongs to its run. -/
def StatementDb.Reviewable (s : StatementDb) (key : Uuid × ReviewKind × String) : Prop :=
  ∃ r, s.runs.find? key.1 = some r ∧ (key.2.1 = .statement →
    ∃ x, s.statementRows.find? (r.mappingId, key.2.2) = some x ∧ x.importId = r.importId)

/-- A match pairs a row of its mapping with a posting of the ledger, and both say the same. -/
def StatementDb.Pairs (s : StatementDb) (m : StatementMatch) : Prop :=
  ∃ r q, s.statementRows.find? (m.mappingId, m.rowId) = some r ∧
    s.ledger.postings.find? m.postingId = some q ∧ r.amount = q.amount ∧
    r.direction = q.direction ∧ r.currency = q.currency

/-- An item of a snapshot belongs to a run and copies a posting. -/
def StatementDb.Copies (s : StatementDb) (i : SnapshotItem) : Prop :=
  (∃ r, s.runs.find? i.runId = some r) ∧ ∃ q, s.ledger.postings.find? i.postingId = some q ∧
    i.amount = q.amount ∧ i.direction = q.direction ∧ i.currency = q.currency

/-- The import names the mapping. -/
def StatementDb.Imports (s : StatementDb) (importId mappingId : Uuid) : Prop :=
  ∃ i, s.imports.find? importId = some i ∧ i.mappingId = mappingId

/-- What ties the tables together. -/
structure Wired (s : StatementDb) : Prop where
  row : ∀ r ∈ s.statementRows, s.Imports r.importId r.mappingId
  run : ∀ r ∈ s.runs, s.Imports r.importId r.mappingId
  item : ∀ i ∈ s.snapshotItems, s.Copies i
  review : ∀ i ∈ s.reviewItems, s.Reviewable i.key
  pair : ∀ m ∈ s.statementMatches, s.Pairs m
  once : ∀ m ∈ s.statementMatches, ∀ m' ∈ s.statementMatches, m.Clashes m' → m = m'
  versions : VersionChain s.reviewItems s.reviewEvents

section Wiring

variable {env : StatementEnv} {s s' : StatementDb}

/-- What can be reviewed can be reviewed in an extension. -/
theorem StatementDb.Reviewable.mono {key : Uuid × ReviewKind × String} (h : s.Reviewable key)
    (hext : s.Extends s') : s'.Reviewable key := by
  obtain ⟨r, hr, hrow⟩ := h
  obtain ⟨r', hr', hsame⟩ := hext.runs hr
  refine ⟨r', hr', fun hk => ?_⟩
  obtain ⟨x, hx, himport⟩ := hrow hk
  rw [hsame.mappingId, hsame.importId]
  exact ⟨x, hext.rows hx, himport⟩

/-- A match pairs its row and its posting in an extension too. -/
theorem StatementDb.Pairs.mono {m : StatementMatch} (h : s.Pairs m) (hext : s.Extends s') :
    s'.Pairs m := by
  obtain ⟨r, q, hr, hq, hsame⟩ := h
  exact ⟨r, q, hext.rows hr, hext.postings hq, hsame⟩

/-- An item copies its posting in an extension too. -/
theorem StatementDb.Copies.mono {i : SnapshotItem} (h : s.Copies i) (hext : s.Extends s') :
    s'.Copies i := by
  obtain ⟨⟨r, hr⟩, q, hq, hsame⟩ := h
  obtain ⟨r', hr', -⟩ := hext.runs hr
  exact ⟨⟨r', hr'⟩, q, hext.postings hq, hsame⟩

/-- An import is of its manifest in an extension too. -/
theorem StatementDb.Imports.mono {i m : Uuid} (h : s.Imports i m) (hext : s.Extends s') :
    s'.Imports i m := by
  obtain ⟨x, hx, hm⟩ := h
  exact ⟨x, hext.imports hx, hm⟩

/-- An import has one manifest. -/
theorem StatementDb.Imports.unique {i m m' : Uuid} (h : s.Imports i m) (h' : s.Imports i m') :
    m = m' := by
  obtain ⟨x, hx, rfl⟩ := h
  obtain ⟨x', hx', rfl⟩ := h'
  rw [hx, Option.some.injEq] at hx'
  rw [hx']

/-- A step keeps the tables tied together when its new rows are. -/
theorem Wired.step (h : Wired s) (hext : s.Extends s')
    (hrow : ∀ r ∈ s'.statementRows, r ∈ s.statementRows ∨ s'.Imports r.importId r.mappingId)
    (hrun : ∀ r ∈ s'.runs, (∃ r₀ ∈ s.runs, r₀.Same r) ∨ s'.Imports r.importId r.mappingId)
    (hitem : ∀ i ∈ s'.snapshotItems, i ∈ s.snapshotItems ∨ s'.Copies i)
    (hreview : ∀ i ∈ s'.reviewItems, (∃ i₀ ∈ s.reviewItems, i₀.key = i.key) ∨ s'.Reviewable i.key)
    (hpair : ∀ m ∈ s'.statementMatches, m ∈ s.statementMatches ∨ s'.Pairs m)
    (honce : ∀ m ∈ s'.statementMatches, ∀ m' ∈ s'.statementMatches, m.Clashes m' → m = m')
    (hversions : VersionChain s'.reviewItems s'.reviewEvents) : Wired s' where
  row r hr := (hrow r hr).elim (fun hold => (h.row r hold).mono hext) fun hnew => hnew
  run r hr := by
    rcases hrun r hr with ⟨r₀, hr₀, hsame⟩ | hnew
    · rw [hsame.importId, hsame.mappingId]
      exact (h.run r₀ hr₀).mono hext
    · exact hnew
  item i hi := (hitem i hi).elim (fun hold => (h.item i hold).mono hext) fun hnew => hnew
  review i hi := by
    rcases hreview i hi with ⟨i₀, hi₀, hkey⟩ | hnew
    · rw [← hkey]
      exact (h.review i₀ hi₀).mono hext
    · exact hnew
  pair m hm := (hpair m hm).elim (fun hold => (h.pair m hold).mono hext) fun hnew => hnew
  once := honce
  versions := hversions

/-- A step that writes stored commands and the audit trail only. -/
theorem Wired.noted (h : Wired s) (hnoted : s.Noted s') : Wired s' := by
  have hext := hnoted.extends
  rw [hnoted] at hext ⊢
  exact h.step hext (fun _ hr => .inl hr) (fun r hr => .inl ⟨r, hr, .refl r⟩) (fun _ hi => .inl hi)
    (fun i hi => .inl ⟨i, hi, rfl⟩) (fun _ hm => .inl hm) h.once h.versions

/-- A new match that shares neither row nor posting with another. -/
theorem Wired.insert_match (h : Wired s) {m : StatementMatch} {t : Table StatementMatch.id}
    (hpair : s.Pairs m) (hnew : ¬∃ x ∈ s.statementMatches.rows, m.Clashes x)
    (hins : s.statementMatches.insert? m = some t) : Wired { s with statementMatches := t } := by
  have hext := extends_insert_match hins
  refine h.step hext (fun _ hr => .inl hr) (fun r hr => .inl ⟨r, hr, .refl r⟩)
    (fun _ hi => .inl hi) (fun i hi => .inl ⟨i, hi, rfl⟩) (fun x hx => ?_) (fun x hx y hy hclash => ?_)
    h.versions
  · rcases (Table.mem_insert? hins).mp hx with rfl | hx
    · exact .inr (hpair.mono hext)
    · exact .inl hx
  · have hsymm : ∀ {a b : StatementMatch}, a.Clashes b → b.Clashes a := fun {a b} hab =>
      ⟨hab.1.symm, hab.2.imp Eq.symm Eq.symm⟩
    rcases (Table.mem_insert? hins).mp hx with rfl | hx <;>
      rcases (Table.mem_insert? hins).mp hy with rfl | hy
    · rfl
    · exact absurd ⟨y, hy, hclash⟩ hnew
    · exact absurd ⟨x, hx, hsymm hclash⟩ hnew
    · exact h.once x hx y hy hclash

/-- A new review item. -/
theorem Wired.insert_item (h : Wired s) {i : ReviewItem} {t : Table ReviewItem.key}
    (hreview : s.Reviewable i.key) (hzero : (i.version : ℤ) = 0)
    (hins : s.reviewItems.insert? i = some t) : Wired { s with reviewItems := t } := by
  have hext : s.Extends { s with reviewItems := t } := .of_eq rfl rfl rfl rfl rfl rfl
  refine h.step hext (fun _ hr => .inl hr) (fun r hr => .inl ⟨r, hr, .refl r⟩)
    (fun _ hi => .inl hi) (fun x hx => ?_) (fun _ hm => .inl hm) h.once (h.versions.insert hzero hins)
  rcases (Table.mem_insert? hins).mp hx with rfl | hx
  · exact .inr (hreview.mono hext)
  · exact .inl ⟨x, hx, rfl⟩

/-- An item that took its next version. -/
theorem Wired.advance (h : Wired s) {item next : ReviewItem} (hadvanced : Advanced item next s s')
    (hfind : s.reviewItems.find? item.key = some item) (hkey : next.key = item.key) : Wired s' := by
  have hext := hadvanced.extends
  obtain ⟨v, e, events, hv, hitem, hfrom, hto, hins, rfl⟩ := hadvanced
  refine h.step hext (fun _ hr => .inl hr) (fun r hr => .inl ⟨r, hr, .refl r⟩)
    (fun _ hi => .inl hi) (fun x hx => .inl ?_) (fun _ hm => .inl hm) h.once
    (h.versions.advance hfind hkey hv hitem hfrom (hto ▸ hv) hins)
  rcases Table.mem_replace hx with rfl | ⟨hx, -⟩
  · exact ⟨item, Table.mem_of_find? hfind, hkey.symm⟩
  · exact ⟨x, hx, rfl⟩

/-- A row of the import of a run is found under the mapping of the run. -/
theorem Wired.find_row (h : Wired s) {run : StatementRun} {x : ImportedRow}
    (hrun : s.Imports run.importId run.mappingId) (hx : x ∈ s.statementRows)
    (himport : x.importId = run.importId) :
    s.statementRows.find? (run.mappingId, x.id) = some x := by
  have hmapping := (h.row x hx).unique (himport ▸ hrun)
  exact Table.find?_eq_some.mpr ⟨hx, by rw [ImportedRow.key, hmapping]⟩

/-- The item of a candidate. -/
theorem StatementDb.mem_candidates {run : Uuid} {r : StatementRow} {u : Uuid} :
    u ∈ s.candidates run r ↔
      ∃ i ∈ s.snapshotItems, i.runId = run ∧ i.Fits r ∧ i.postingId = u := by
  simp only [StatementDb.candidates, List.mem_mergeSort, List.mem_map, List.mem_filter,
    StatementDb.itemsOf, decide_eq_true_eq, and_assoc, Table.mem_def]

/-- The work on one row keeps the evidence wired. -/
theorem RowDone.wired {run : StatementRun} {actor : String} {ids : CompleteIds} {r : ImportedRow}
    (h : RowDone run actor ids r s s') (hs : Wired s)
    (hrun : ∃ x, s.runs.find? run.id = some x ∧ run.Same x)
    (hr : r ∈ s.statementRows) (himport : r.importId = run.importId) : Wired s' := by
  obtain ⟨x, hx, hsame⟩ := hrun
  -- The run ties the mapping of its import to the row.
  have himports : s.Imports run.importId run.mappingId := by
    rw [← hsame.importId, ← hsame.mappingId]
    exact hs.run x (Table.mem_of_find? hx)
  have hrow := hs.find_row himports hr himport
  have hreview : s.Reviewable (run.id, .statement, r.id) := by
    refine ⟨x, hx, fun _ => ⟨r, ?_, himport.trans hsame.importId.symm⟩⟩
    rw [hsame.mappingId]
    exact hrow
  -- A row left unmatched gets an item, a matched one a match as well.
  cases h with
  | left _ items =>
    refine hs.insert_item ?_ rfl items
    exact hreview
  | matched candidates new recorded items =>
    rename_i chosen t t'
    -- The chosen candidate was the only one, and it agrees with the row in all columns.
    have hpair : s.Pairs (exactMatch run actor ids r chosen) := by
      obtain ⟨i, hi, -, ⟨-, hdirection, hamount, hcurrency⟩, rfl⟩ :=
        StatementDb.mem_candidates.mp (candidates ▸ List.mem_singleton_self chosen)
      obtain ⟨-, q, hq, ha, hd, hc⟩ := hs.item i hi
      exact ⟨r, q, hrow, hq, hamount.symm.trans ha, hdirection.symm.trans hd,
        hcurrency.symm.trans hc⟩
    refine (hs.insert_match hpair new recorded).insert_item ?_ rfl items
    exact hreview.mono (extends_insert_match recorded)

/-- The work on the rows of a run keeps the evidence wired. -/
theorem RowsDone.wired {run : StatementRun} {actor : String} {ids : CompleteIds}
    {l : List ImportedRow} (h : RowsDone run actor ids l s s') (hs : Wired s)
    (hrun : s.runs.find? run.id = some run)
    (hrows : ∀ r ∈ l, r ∈ s.statementRows ∧ r.importId = run.importId) : Wired s' := by
  induction h with
  | nil => exact hs
  | snoc done row ih =>
    have hext := done.extends
    have hold := ih hs hrun fun x hx => hrows x (List.mem_append_left _ hx)
    obtain ⟨hr, himport⟩ := hrows _ (List.mem_append_right _ (List.mem_singleton_self _))
    have hfind := hext.rows (Table.find?_eq_some.mpr ⟨hr, rfl⟩)
    exact row.wired hold (hext.runs hrun) (Table.mem_of_find? hfind) himport

/-- Several new review items. -/
theorem Wired.insert_items (h : Wired s) {new : List ReviewItem} {t : Table ReviewItem.key}
    (hreview : ∀ i ∈ new, s.Reviewable i.key) (hzero : ∀ i ∈ new, (i.version : ℤ) = 0)
    (hins : s.reviewItems.insertAll? new = some t) : Wired { s with reviewItems := t } := by
  have hext : s.Extends { s with reviewItems := t } := .of_eq rfl rfl rfl rfl rfl rfl
  refine h.step hext (fun _ hr => .inl hr) (fun r hr => .inl ⟨r, hr, .refl r⟩)
    (fun _ hi => .inl hi) (fun x hx => ?_) (fun _ hm => .inl hm) h.once
    (h.versions.insertAll hzero hins)
  rcases (Table.mem_insertAll? hins).mp hx with hx | hx
  · exact .inr ((hreview x hx).mono hext)
  · exact .inl ⟨x, hx, rfl⟩

/-- A run whose state changed. -/
theorem Wired.complete_run (h : Wired s) {id : Uuid} {f : StatementRun → StatementRun}
    {hf : ∀ r, r.id = id → (f r).id = id} (hsame : ∀ r : StatementRun, r.Same (f r)) :
    Wired { s with runs := s.runs.update id f hf } := by
  refine h.step { StatementDb.Extends.refl s with runs := fun {k x} hx => ?_ } (fun _ hr => .inl hr)
    (fun r hr => ?_) (fun _ hi => .inl hi) (fun i hi => .inl ⟨i, hi, rfl⟩) (fun _ hm => .inl hm)
    h.once h.versions
  · dsimp only
    rw [Table.find?_update]
    split_ifs with hk
    · subst hk
      rw [hx]
      exact ⟨_, rfl, hsame x⟩
    · exact ⟨x, hx, .refl x⟩
  · dsimp only at hr
    obtain ⟨r₀, hr₀, rfl⟩ := Table.mem_update.mp hr
    refine .inl ⟨r₀, hr₀, ?_⟩
    split_ifs
    · exact hsame r₀
    · exact .refl r₀

/-- Completing a run keeps the evidence wired. -/
theorem RunCompleted.wired {run : StatementRun} {actor : String} {ids : CompleteIds}
    {rows : List ImportedRow} {mid : StatementDb} (h : RunCompleted s s' run actor ids rows mid)
    (hs : Wired s) : Wired s' := by
  have hmid : Wired mid := by
    refine h.loop.wired hs h.find fun r hr => ?_
    have hof := h.perm.mem_iff.mp hr
    simpa [StatementDb.rowsOf, Table.mem_def] using hof
  obtain ⟨x, hx, -⟩ := h.loop.extends.runs h.find
  obtain ⟨result, hruns⟩ := h.runs
  have hitems : Wired { mid with reviewItems := s'.reviewItems } := by
    refine hmid.insert_items (fun i hi => ?_) (fun i hi => ?_) h.items
    · obtain ⟨y, -, rfl⟩ := List.mem_map.mp hi
      exact ⟨x, hx, fun hk => by cases hk⟩
    · obtain ⟨y, -, rfl⟩ := List.mem_map.mp hi
      rfl
  rw [h.frame, hruns]
  exact hitems.complete_run fun r => ⟨rfl, rfl, fun _ => rfl⟩

/-- The item that is reviewed is as it was read when it is written. -/
theorem Reviewed.find_item {p : StatementMeta} {run : StatementRun} {item : ReviewItem}
    {d : ReviewDecision} {ids : ReviewIds} {mid : StatementDb}
    (h : Reviewed s s' p run item d ids mid) : mid.reviewItems.find? item.key = some item := by
  cases h.step with
  | unmatched => exact h.item_find
  | again => exact h.item_find
  | linked hstatus hlinked =>
    rcases hlinked.ledger with ⟨-, rfl⟩ | ⟨i, hi, hadvanced⟩
    · exact h.item_find
    · have hkey := Table.key_of_find? hi
      obtain ⟨v, e, events, -, -, -, -, -, rfl⟩ := hadvanced
      dsimp only
      rw [Table.find?_replace_ne]
      · exact h.item_find
      · intro heq
        have hkind : item.kind = i.kind := congrArg (·.2.1) heq
        have hledger : i.kind = .ledger := congrArg (·.2.1) hkey
        rw [hlinked.kind, hledger] at hkind
        cases hkind

/-- The row of an item that is linked is a row of the run's import, and it has the money of the
posting. -/
theorem Reviewed.pairs {p : StatementMeta} {run : StatementRun} {item : ReviewItem}
    {d : ReviewDecision} {ids : ReviewIds} {mid s₁ : StatementDb} {target : Uuid}
    {t : Table StatementMatch.id} (h : Reviewed s s' p run item d ids mid) (hs : Wired s)
    (hlinked : ReviewLinked s s₁ p run item target ids t) :
    s.Pairs (manualMatch p run item target ids) := by
  obtain ⟨i, hi, hmoney⟩ := hlinked.snapshot
  obtain ⟨-, q, hq, ha, hd, hc⟩ := hs.item i (Table.mem_of_find? hi)
  obtain ⟨r, hr, hrow⟩ := hs.review item (Table.mem_of_find? h.item_find)
  have hkey := Table.key_of_find? hi
  simp only [SnapshotItem.key, Prod.mk.injEq] at hkey
  rw [ReviewItem.key, h.item_run, h.run_find, Option.some.injEq] at hr
  subst hr
  obtain ⟨x, hx, himport⟩ := hrow hlinked.kind
  have hxid := Table.key_of_find? hx
  simp only [ImportedRow.key, ReviewItem.key, Prod.mk.injEq] at hxid
  have hmem : x ∈ s.rowsOf run.importId := by
    simpa [StatementDb.rowsOf, himport, Table.mem_def] using Table.mem_of_find? hx
  -- The procedure looks the row up by its identifier among the rows of the import.
  obtain ⟨y, hy⟩ := Option.isSome_iff_exists.mp
    (List.find?_isSome.mpr ⟨x, hmem, by simpa using hxid.2⟩ :
      ((s.rowsOf run.importId).find? (·.id = item.itemId)).isSome)
  have hyid : y.id = item.itemId := by simpa using List.find?_some hy
  have hymem : y ∈ s.statementRows ∧ y.importId = run.importId := by
    simpa [StatementDb.rowsOf, Table.mem_def] using List.mem_of_find?_eq_some hy
  have hfind := hs.find_row (hs.run run (Table.mem_of_find? h.run_find)) hymem.1 hymem.2
  obtain ⟨ha', hd', hc'⟩ := hmoney y hy
  rw [hyid] at hfind
  rw [hkey.2] at hq
  exact ⟨y, q, hfind, hq, ha'.trans ha, hd'.trans hd, hc'.trans hc⟩

/-- A review keeps the evidence wired. -/
theorem Reviewed.wired {p : StatementMeta} {run : StatementRun} {item : ReviewItem}
    {d : ReviewDecision} {ids : ReviewIds} {mid : StatementDb}
    (h : Reviewed s s' p run item d ids mid) (hs : Wired s) : Wired s' := by
  obtain ⟨status, -, hwritten⟩ := h.written
  suffices hmid : Wired mid from hmid.advance hwritten h.find_item rfl
  cases h.step with
  | unmatched => exact hs
  | again => exact hs
  | linked hstatus hlinked =>
    have hmatched := hs.insert_match (h.pairs hs hlinked) hlinked.new hlinked.recorded
    rcases hlinked.ledger with ⟨-, rfl⟩ | ⟨i, hi, hadvanced⟩
    · exact hmatched
    · rw [← Table.key_of_find? hi] at hi
      exact hmatched.advance hadvanced hi rfl

/-- The items of a new snapshot copy their postings. -/
theorem Prepared.copies {run : StatementRun} (h : Prepared env s s' run) {i : SnapshotItem}
    (hi : i ∈ s'.snapshotItems) : i ∈ s.snapshotItems ∨ s'.Copies i := by
  obtain ⟨_, b, items, -, -, -, -, hitems, -, hsnapshot⟩ := h.source
  rcases (Table.mem_insertAll? hsnapshot).mp hi with hi | hi
  · have hmade := map_eq_of_mapM hitems
    obtain ⟨q, hq, hof⟩ := List.mem_map.mp (hmade ▸ List.mem_map_of_mem hi : some i ∈ _)
    simp only [StatementDb.snapshotOf?, Option.bind_eq_bind, Option.bind_eq_some_iff,
      Option.some.injEq] at hof
    obtain ⟨j, -, reference, -, rfl⟩ := hof
    have hposting : s.ledger.postings.find? q.id = some q := by
      refine Table.find?_eq_some.mpr ⟨?_, rfl⟩
      have hmem := List.mem_of_mem_take hq
      rw [List.mem_mergeSort] at hmem
      exact (List.mem_filter.mp hmem).1
    rw [h.frame]
    exact .inr ⟨⟨run, Table.find?_insert?_self h.runs rfl⟩, q, hposting, rfl, rfl, rfl⟩
  · exact .inl hi

/-- A returning command keeps the evidence wired. -/
theorem StatementEffect.wired {c : StatementCall} (h : StatementEffect env s c s') (hs : Wired s) :
    Wired s' := by
  have hext := h.extends
  cases h with
  | noted h => exact hs.noted h
  | ledger h =>
    exact hs.step hext (fun _ hr => .inl hr) (fun r hr => .inl ⟨r, hr, .refl r⟩)
      (fun _ hi => .inl hi) (fun i hi => .inl ⟨i, hi, rfl⟩) (fun _ hm => .inl hm) hs.once hs.versions
  -- A mapping belongs to none of the linked tables.
  | mapped h noted =>
    refine Wired.noted ?_ noted
    rw [h.frame]
    exact hs.step (.of_eq rfl rfl rfl rfl rfl rfl) (fun _ hr => .inl hr)
      (fun r hr => .inl ⟨r, hr, .refl r⟩) (fun _ hi => .inl hi) (fun i hi => .inl ⟨i, hi, rfl⟩)
      (fun _ hm => .inl hm) hs.once hs.versions
  | imported h noted =>
    rename_i i st s₁
    refine Wired.noted ?_ noted
    rw [h.frame]
    -- The new rows belong to the new import.
    have hnew : s₁.imports.find? i.id = some i := Table.find?_insert?_self h.imports rfl
    refine hs.step { StatementDb.Extends.refl s with
      imports := Table.find?_insert?_of_some h.imports
      rows := Table.find?_insertAll?_of_some h.rows } (fun r hr => ?_)
      (fun r hr => .inl ⟨r, hr, .refl r⟩) (fun _ hi => .inl hi) (fun i hi => .inl ⟨i, hi, rfl⟩)
      (fun _ hm => .inl hm) hs.once hs.versions
    rcases (Table.mem_insertAll? h.rows).mp hr with hr | hr
    · obtain ⟨x, -, rfl⟩ := List.mem_map.mp hr
      exact .inr ⟨i, hnew, rfl⟩
    · exact .inl hr
  | prepared h noted =>
    rename_i run s₁
    refine Wired.noted ?_ noted
    -- The new snapshot copies postings of the ledger.
    have hcopies : ∀ i ∈ s₁.snapshotItems, i ∈ s.snapshotItems ∨ s₁.Copies i := fun i hi =>
      h.copies hi
    obtain ⟨x, b, items, himport, hmapping, -, -, -, -, hsnapshot⟩ := h.source
    rw [h.frame] at hcopies ⊢
    refine hs.step { StatementDb.Extends.refl s with
      runs := fun hx => ⟨_, Table.find?_insert?_of_some h.runs hx, .refl _⟩
      items := Table.find?_insertAll?_of_some hsnapshot } (fun _ hr => .inl hr) (fun r hr => ?_)
      hcopies (fun i hi => .inl ⟨i, hi, rfl⟩) (fun _ hm => .inl hm) hs.once hs.versions
    rcases (Table.mem_insert? h.runs).mp hr with rfl | hr
    · exact .inr ⟨x, himport, hmapping⟩
    · exact .inl ⟨r, hr, .refl r⟩
  | completed h noted => exact (h.wired hs).noted noted
  | reviewed _ h noted => exact (h.wired hs).noted noted

/-- The evidence of an initial database is wired. -/
theorem StatementDb.Initial.wired (h : s.Initial) : Wired s where
  row r hr := by
    -- All these tables are empty at the start.
    rw [Table.mem_def, h.statementRows] at hr
    cases hr
  run r hr := by
    rw [Table.mem_def, h.runs] at hr
    cases hr
  item i hi := by
    rw [Table.mem_def, h.snapshotItems] at hi
    cases hi
  review i hi := by
    rw [Table.mem_def, h.reviewItems] at hi
    cases hi
  pair m hm := by
    rw [Table.mem_def, h.statementMatches] at hm
    cases hm
  once m hm := by
    rw [Table.mem_def, h.statementMatches] at hm
    cases hm
  versions :=
    { chain := fun i hi => by
        rw [Table.mem_def, h.reviewItems] at hi
        cases hi
      owned := fun e he => by
        rw [Table.mem_def, h.reviewEvents] at he
        cases he }

/-- The tables are tied together after every history. -/
theorem run_wired (env : StatementEnv) (cs : List StatementCall) (hs : Wired s) :
    Wired (run (execStatement env) cs s) :=
  run_invariant (fun _ _ _ _ hstep hw => (execStatement_effect hstep).wired hw) cs hs

end Wiring

/-! ## Evidence is used once -/

/-- A row and a posting are in one match of a mapping at most, matched rows and postings say the
same, and the events of a review item lead from version zero to its version. -/
structure ConsumedOnce (s : StatementDb) : Prop where
  row : ∀ m ∈ s.statementMatches, ∀ m' ∈ s.statementMatches, m'.mappingId = m.mappingId →
    m'.rowId = m.rowId → m = m'
  posting : ∀ m ∈ s.statementMatches, ∀ m' ∈ s.statementMatches, m'.mappingId = m.mappingId →
    m'.postingId = m.postingId → m = m'
  money : ∀ m ∈ s.statementMatches, s.Pairs m
  versions : ∀ i ∈ s.reviewItems, ∃ n : ℕ, (i.version : ℤ) = n ∧
    versionsOf s.reviewEvents i.key = versionSteps n

/-- A review of an item at another version than the item has. -/
def StaleReview (s : StatementDb) (target : Uuid) (decision : Json) : Prop :=
  ∃ d item, reviewDecision? decision = some d ∧ s.reviewed? target d = some item ∧
    castBigint d.expectedVersion ≠ some item.version

/-- A stale review changes nothing. -/
theorem commit_stale {env : StatementEnv} {s : StatementDb} {sess : Session} {p : StatementMeta}
    {target : Uuid} {decision : Json} {ids : ReviewIds} (h : StaleReview s target decision) :
    commit (execStatement env (.review sess p target decision ids)) s = s := by
  obtain ⟨d, item, hd, hitem, hstale⟩ := h
  rcases commit_cases (execStatement env (.review sess p target decision ids)) s with hsame | ⟨u, hok⟩
  · exact hsame
  obtain ⟨r, hreview⟩ := Txn.discard_ok.mp hok
  obtain hsame | ⟨run, item', d', mid, s₁, rfl, hd', hdone, -⟩ :=
    controlledStatementReviewV1_ok hreview
  · exact hsame
  rw [hd, Option.some.injEq] at hd'
  subst hd'
  -- The item that was reviewed is the one that is named, so its version was expected.
  rw [StatementDb.reviewed?, hdone.kind, hdone.itemId, ← hdone.item_run] at hitem
  have hsame : some item' = some item := hdone.item_find.symm.trans hitem
  rw [Option.some.injEq] at hsame
  subst hsame
  exact absurd hdone.version hstale

/-- Statement evidence is used at most once and reviews form a chain, after every history; a stale
review changes nothing. -/
theorem evidence_consumed_once (env : StatementEnv) (s₀ : StatementDb) (h₀ : s₀.Initial)
    (cs : List StatementCall) :
    ConsumedOnce (run (execStatement env) cs s₀) ∧
      ∀ sess p target decision ids,
        StaleReview (run (execStatement env) cs s₀) target decision →
        commit (execStatement env (.review sess p target decision ids))
          (run (execStatement env) cs s₀) = run (execStatement env) cs s₀ := by
  have hw := run_wired env cs h₀.wired
  refine ⟨⟨fun m hm m' hm' hmapping hrow => ?_, fun m hm m' hm' hmapping hposting => ?_, hw.pair,
    hw.versions.chain⟩, fun _ _ _ _ _ hstale => commit_stale hstale⟩
  · exact hw.once m hm m' hm' ⟨hmapping, .inl hrow⟩
  · exact hw.once m hm m' hm' ⟨hmapping, .inr hposting⟩

namespace Sample

/-- The ledger before its first command, and nothing to reconcile. -/
def statementDb : StatementDb :=
  ⟨db, .empty, .empty, .empty, .empty, .empty, .empty, .empty, .empty, .empty⟩

/-- The sample database is initial. -/
theorem statementDb_initial : statementDb.Initial :=
  ⟨provisioned, rfl, rfl, rfl, rfl, rfl, rfl, rfl, rfl, rfl⟩

end Sample

end LedgerSync
