import LedgerSync.StatementEvidence
import LedgerSync.StatementParsers

/-!
# The status of review items

The status of a review item tells whether its row or posting is matched, as long as nobody reviews
the item of a posting that is matched already (`review_status_truthful`). A review protects the item
of a matched row, and not that of a matched posting: an operator links a row with a posting and then
opens the item of the posting again, while the match stays (`matched_posting_reopened`).
-/

namespace LedgerSync

open Lib

/-- The match is of the row or the posting that a review item is about. -/
def StatementMatch.Concerns (m : StatementMatch) : Uuid × ReviewKind × String → Prop
  | (run, .statement, itemId) => m.runId = run ∧ m.rowId = itemId
  | (run, .ledger, itemId) => m.runId = run ∧ m.postingId.text = itemId

/-- A match of the run is recorded for the row or the posting. -/
def StatementDb.HasMatch (s : StatementDb) (key : Uuid × ReviewKind × String) : Prop :=
  ∃ m ∈ s.statementMatches, m.Concerns key

/-- The items among `K` are matched exactly when a match is recorded. -/
def TruthfulOn (K : Uuid × ReviewKind × String → Prop) (s : StatementDb) : Prop :=
  ∀ i ∈ s.reviewItems, K i.key → (i.status = .matched ↔ s.HasMatch i.key)

/-- An item is matched exactly when a match is recorded for its run and its row or posting. -/
def Truthful (s : StatementDb) : Prop :=
  ∀ i ∈ s.reviewItems, (i.status = .matched ↔ s.HasMatch i.key)

/-- The run is completed. -/
def StatementDb.Completed (s : StatementDb) (run : Uuid) : Prop :=
  ∃ r, s.runs.find? run = some r ∧ r.state = .completed

/-- Only completed runs have matches and review items. -/
structure Settled (s : StatementDb) : Prop where
  recorded : ∀ m ∈ s.statementMatches, s.Completed m.runId
  reviewed : ∀ i ∈ s.reviewItems, s.Completed i.runId

section Status

variable {env : StatementEnv} {s s' : StatementDb}

/-- A database is truthful when it is so about all items. -/
theorem truthful_iff : Truthful s ↔ TruthfulOn (fun _ => True) s :=
  ⟨fun h i hi _ => h i hi, fun h i hi => h i hi trivial⟩

/-- A match that concerns an item is of its run. -/
theorem StatementMatch.Concerns.run {m : StatementMatch} {key : Uuid × ReviewKind × String}
    (h : m.Concerns key) : m.runId = key.1 := by
  obtain ⟨run, _ | _, itemId⟩ := key <;> exact h.1

/-- After an insertion an item has a match when it had one or the new one concerns it. -/
theorem hasMatch_insert {m : StatementMatch} {t : Table StatementMatch.id}
    (h : s.statementMatches.insert? m = some t) (key : Uuid × ReviewKind × String) :
    { s with statementMatches := t }.HasMatch key ↔ m.Concerns key ∨ s.HasMatch key := by
  unfold StatementDb.HasMatch
  simp only [Table.mem_insert? h, or_and_right, exists_or, exists_eq_left]

/-- An item whose new status is right. -/
theorem TruthfulOn.advance {K : Uuid × ReviewKind × String → Prop} {item next : ReviewItem}
    (h : TruthfulOn (fun k => K k ∧ k ≠ item.key) s) (hadvanced : Advanced item next s s')
    (hkey : next.key = item.key) (hstatus : next.status = .matched ↔ s.HasMatch item.key) :
    TruthfulOn K s' := by
  obtain ⟨v, e, events, -, -, -, -, -, rfl⟩ := hadvanced
  intro x hx hK
  rcases Table.mem_replace hx with rfl | ⟨hx, hne⟩
  · have hsame : ReviewItem.key { next with version := v } = item.key := hkey
    rw [hsame]
    exact hstatus
  · exact h x hx ⟨hK, fun heq => hne (heq.trans hkey.symm)⟩

/-- A new item whose status is right. -/
theorem Truthful.insert_item (h : Truthful s) {i : ReviewItem} {t : Table ReviewItem.key}
    (hins : s.reviewItems.insert? i = some t) (hstatus : i.status = .matched ↔ s.HasMatch i.key) :
    Truthful { s with reviewItems := t } := by
  intro x hx
  rcases (Table.mem_insert? hins).mp hx with rfl | hx
  · exact hstatus
  · exact h x hx

/-- What the loop of a completion has recorded so far. -/
structure LoopRecord (run : StatementRun) (l : List ImportedRow) (s s' : StatementDb) : Prop where
  recorded : ∀ m ∈ s'.statementMatches, m ∈ s.statementMatches ∨
    m.runId = run.id ∧ ∃ r ∈ l, r.id = m.rowId
  items : ∀ i ∈ s'.reviewItems, i ∈ s.reviewItems ∨ ∃ r ∈ l, i.key = (run.id, .statement, r.id)

/-- The work on the rows records one item for each of them. -/
theorem RowsDone.record {run : StatementRun} {actor : String} {ids : CompleteIds}
    {l : List ImportedRow} (h : RowsDone run actor ids l s s') : LoopRecord run l s s' := by
  induction h with
  | nil => exact ⟨fun _ hm => .inl hm, fun _ hi => .inl hi⟩
  | @snoc l r s s₁ s' done row ih =>
    -- The matches and items of the earlier rows belong to a longer list all the same.
    have hmatches : ∀ m ∈ s₁.statementMatches, m ∈ s.statementMatches ∨
        m.runId = run.id ∧ ∃ x ∈ l ++ [r], x.id = m.rowId := by
      intro m hm
      refine (ih.recorded m hm).imp_right fun ⟨hrun, x, hx, hid⟩ => ?_
      exact ⟨hrun, x, List.mem_append_left _ hx, hid⟩
    have hitems : ∀ i ∈ s₁.reviewItems, i ∈ s.reviewItems ∨
        ∃ x ∈ l ++ [r], i.key = (run.id, .statement, x.id) := by
      intro i hi
      refine (ih.items i hi).imp_right fun ⟨x, hx, hid⟩ => ?_
      exact ⟨x, List.mem_append_left _ hx, hid⟩
    have hlast : r ∈ l ++ [r] := List.mem_append_right _ (List.mem_singleton_self r)
    -- The last row leaves an item, and a match in the second case.
    cases row with
    | left _ items =>
      refine ⟨hmatches, fun i hi => ?_⟩
      rcases (Table.mem_insert? items).mp hi with rfl | hi
      · exact .inr ⟨r, hlast, rfl⟩
      · exact hitems i hi
    | matched _ _ recorded items =>
      refine ⟨fun m hm => ?_, fun i hi => ?_⟩
      · rcases (Table.mem_insert? recorded).mp hm with rfl | hm
        · exact .inr ⟨rfl, r, hlast, rfl⟩
        · exact hmatches m hm
      · rcases (Table.mem_insert? items).mp hi with rfl | hi
        · exact .inr ⟨r, hlast, rfl⟩
        · exact hitems i hi

/-- A run that is not completed has no match and no review item. -/
theorem Settled.unstarted (h : Settled s) {run : StatementRun} (hfind : s.runs.find? run.id = some run)
    (hstate : run.state = .prepared) :
    (∀ m ∈ s.statementMatches, m.runId ≠ run.id) ∧ ∀ i ∈ s.reviewItems, i.runId ≠ run.id := by
  have hnot : ¬s.Completed run.id := by
    rintro ⟨r, hr, hcompleted⟩
    rw [hfind, Option.some.injEq] at hr
    rw [← hr, hstate] at hcompleted
    cases hcompleted
  exact ⟨fun m hm heq => hnot (heq ▸ h.recorded m hm), fun i hi heq => hnot (heq ▸ h.reviewed i hi)⟩

/-- Every row gets an item whose status is right. -/
theorem RowsDone.truthful {run : StatementRun} {actor : String} {ids : CompleteIds}
    {l : List ImportedRow} (h : RowsDone run actor ids l s s') (hs : Truthful s)
    (hmatches : ∀ m ∈ s.statementMatches, m.runId ≠ run.id)
    (hitems : ∀ i ∈ s.reviewItems, i.runId ≠ run.id) (hnodup : (l.map (·.id)).Nodup) :
    Truthful s' := by
  induction h with
  | nil => exact hs
  | @snoc l r s s₁ s' done row ih =>
    rw [List.map_append, List.map_singleton, List.nodup_append_comm, List.singleton_append,
      List.nodup_cons] at hnodup
    have hold := ih hs hmatches hitems hnodup.2
    have hrecord := done.record
    have hnone : ¬s₁.HasMatch (run.id, .statement, r.id) := by
      rintro ⟨m, hm, hrun, hrow⟩
      rcases hrecord.recorded m hm with hm | ⟨-, x, hx, hid⟩
      · exact hmatches m hm hrun
      · exact hnodup.1 (List.mem_map.mpr ⟨x, hx, hid.trans hrow⟩)
    cases row with
    | left open_ items =>
      refine hold.insert_item items ?_
      have hopen : ∀ c, c ≠ Classification.matched →
          (newItem run actor ids.now .statement r.id c).status ≠ .matched := by
        intro c hc
        simp [newItem, hc]
      exact ⟨fun heq => absurd heq (hopen _ open_), fun hhas => absurd hhas hnone⟩
    | matched candidates new recorded items =>
      rename_i chosen t t'
      have hmatched : Truthful { s₁ with statementMatches := t } := by
        intro x hx
        rw [hasMatch_insert recorded, hold x hx]
        refine ⟨.inr, fun hor => hor.resolve_left fun hconcerns => ?_⟩
        -- The item would be the one of this row, which is not there yet.
        have hrun : x.runId = run.id := hconcerns.run.symm
        rcases hrecord.items x hx with hx' | ⟨y, hy, hkey⟩
        · exact hitems x hx' hrun
        · rw [hkey] at hconcerns
          exact hnodup.1 (List.mem_map.mpr ⟨y, hy, hconcerns.2.symm⟩)
      refine hmatched.insert_item items ?_
      rw [hasMatch_insert recorded]
      exact ⟨fun _ => .inl ⟨rfl, rfl⟩, fun _ => rfl⟩

/-- The rows of an import are told apart by their identifiers. -/
theorem Wired.nodup_rowsOf (h : Wired s) (importId : Uuid) :
    ((s.rowsOf importId).map (·.id)).Nodup := by
  have hkeys : ((s.rowsOf importId).map ImportedRow.key).Nodup :=
    s.statementRows.nodup.sublist (List.filter_sublist.map _)
  refine List.Nodup.map_on (fun x hx y hy hid => ?_) hkeys.of_map
  rw [StatementDb.rowsOf, List.mem_filter, decide_eq_true_eq] at hx hy
  have hmapping := (h.row x hx.1).unique (hx.2.trans hy.2.symm ▸ h.row y hy.1)
  exact Table.eq_of_key hx.1 hy.1 (by rw [ImportedRow.key, ImportedRow.key, hmapping, hid])

/-- Several new items whose statuses are right. -/
theorem Truthful.insert_items (h : Truthful s) {new : List ReviewItem} {t : Table ReviewItem.key}
    (hins : s.reviewItems.insertAll? new = some t)
    (hstatus : ∀ i ∈ new, (i.status = .matched ↔ s.HasMatch i.key)) :
    Truthful { s with reviewItems := t } := by
  intro x hx
  rcases (Table.mem_insertAll? hins).mp hx with hx | hx
  · exact hstatus x hx
  · exact h x hx

/-- The unmatched items of a run are those whose postings no match of the run has. -/
theorem StatementDb.mem_unmatchedItems {run : Uuid} {i : SnapshotItem} :
    i ∈ s.unmatchedItems run ↔ i ∈ s.snapshotItems ∧ i.runId = run ∧
      ¬∃ m ∈ s.statementMatches, m.runId = run ∧ m.postingId = i.postingId := by
  simp only [StatementDb.unmatchedItems, List.mem_mergeSort, List.mem_filter, StatementDb.itemsOf,
    decide_eq_true_eq, and_assoc, Table.mem_def]

/-- Completing a run keeps the items truthful. -/
theorem RunCompleted.truthful {run : StatementRun} {actor : String} {ids : CompleteIds}
    {rows : List ImportedRow} {mid : StatementDb} (h : RunCompleted s s' run actor ids rows mid)
    (hw : Wired s) (hsettled : Settled s) (hs : Truthful s) : Truthful s' := by
  -- The run had not started, so that no match or item of it exists yet.
  obtain ⟨hmatches, hitems⟩ := hsettled.unstarted h.find h.state
  have hnodup : (rows.map (·.id)).Nodup :=
    (h.perm.map _).nodup_iff.mpr (hw.nodup_rowsOf run.importId)
  have hmid := h.loop.truthful hs hmatches hitems hnodup
  -- The ledger items are for postings without a match, and none of them is marked matched.
  have hledger : Truthful { mid with reviewItems := s'.reviewItems } := by
    refine hmid.insert_items h.items fun i hi => ?_
    obtain ⟨x, hx, rfl⟩ := List.mem_map.mp hi
    obtain ⟨-, -, hnone⟩ := StatementDb.mem_unmatchedItems.mp hx
    have hopen : ∀ c : Classification, c ≠ .matched →
        (newItem run actor ids.now .ledger x.postingId.text c).status ≠ .matched := by
      intro c hc
      simp [newItem, hc]
    have hclass : mid.ledgerClassification run.mappingId x ≠ .matched := by
      unfold StatementDb.ledgerClassification
      split_ifs <;> decide
    refine ⟨fun heq => absurd heq (hopen _ hclass), ?_⟩
    -- A match of the posting would have kept it out of the unmatched ones.
    rintro ⟨m, hm, hrun, hposting⟩
    exact absurd ⟨m, hm, hrun, Uuid.text_inj.mp hposting⟩ hnone
  rw [h.frame]
  exact hledger

/-- A completed run stays completed in an extension. -/
theorem StatementDb.Completed.mono {run : Uuid} (h : s.Completed run) (hext : s.Extends s') :
    s'.Completed run := by
  obtain ⟨r, hr, hstate⟩ := h
  obtain ⟨r', hr', hsame⟩ := hext.runs hr
  exact ⟨r', hr', hsame.completed hstate⟩

/-- A step keeps runs settled when its new rows belong to completed runs. -/
theorem Settled.step (h : Settled s) (hext : s.Extends s')
    (hrecorded : ∀ m ∈ s'.statementMatches, m ∈ s.statementMatches ∨ s'.Completed m.runId)
    (hreviewed : ∀ i ∈ s'.reviewItems, (∃ i₀ ∈ s.reviewItems, i₀.runId = i.runId) ∨
      s'.Completed i.runId) : Settled s' where
  recorded m hm := (hrecorded m hm).elim (fun hold => (h.recorded m hold).mono hext) fun hnew => hnew
  reviewed i hi := by
    rcases hreviewed i hi with ⟨i₀, hi₀, hrun⟩ | hnew
    · rw [← hrun]
      exact (h.reviewed i₀ hi₀).mono hext
    · exact hnew

/-- Completing a run keeps the items settled. -/
theorem RunCompleted.settled {run : StatementRun} {actor : String} {ids : CompleteIds}
    {rows : List ImportedRow} {mid : StatementDb} (h : RunCompleted s s' run actor ids rows mid)
    (hs : Settled s) : Settled s' := by
  have hrecord := h.loop.record
  -- The run is completed at the end, which settles whatever is written for it.
  have hcompleted : s'.Completed run.id := by
    obtain ⟨result, hruns⟩ := h.runs
    obtain ⟨x, hx, -⟩ := h.loop.extends.runs h.find
    unfold StatementDb.Completed
    rw [hruns, Table.find?_update_self, hx]
    exact ⟨_, rfl, rfl⟩
  have hmatches : s'.statementMatches = mid.statementMatches := by rw [h.frame]
  refine hs.step h.extends (fun m hm => ?_) (fun i hi => ?_)
  · rw [hmatches] at hm
    refine (hrecord.recorded m hm).imp_right fun hnew => ?_
    rw [hnew.1]
    exact hcompleted
  · rcases (Table.mem_insertAll? h.items).mp hi with hi | hi
    · obtain ⟨x, -, rfl⟩ := List.mem_map.mp hi
      exact .inr hcompleted
    -- An item of the loop is of this run.
    · rcases hrecord.items i hi with hi | ⟨r, -, hkey⟩
      · exact .inl ⟨i, hi, rfl⟩
      · have hrun : i.runId = run.id := congrArg Prod.fst hkey
        rw [hrun]
        exact .inr hcompleted

/-- An item after an advance was there before under its key. -/
theorem Advanced.mem {item next : ReviewItem} (h : Advanced item next s s')
    (hfind : s.reviewItems.find? item.key = some item) (hkey : next.key = item.key) {i : ReviewItem}
    (hi : i ∈ s'.reviewItems) : ∃ i₀ ∈ s.reviewItems, i₀.key = i.key := by
  obtain ⟨v, e, events, -, -, -, -, -, rfl⟩ := h
  rcases Table.mem_replace hi with rfl | ⟨hi, -⟩
  · exact ⟨item, Table.mem_of_find? hfind, hkey.symm⟩
  · exact ⟨i, hi, rfl⟩

/-- The item of a row has a match exactly when the procedure finds its posting. -/
theorem StatementDb.existingPosting_eq_none {item : ReviewItem} (hkind : item.kind = .statement) :
    s.existingPosting item = none ↔ ¬s.HasMatch item.key := by
  have hkey : item.key = (item.runId, .statement, item.itemId) := by rw [ReviewItem.key, hkind]
  rw [StatementDb.existingPosting, hkind, hkey]
  simp only [Option.map_eq_none_iff, List.find?_eq_none, decide_eq_true_eq, StatementDb.HasMatch,
    StatementMatch.Concerns, Table.mem_def, not_exists, not_and]

/-- The two items that a manual match concerns. -/
theorem manualMatch_concerns {p : StatementMeta} {run : StatementRun} {item : ReviewItem}
    {target : Uuid} {ids : ReviewIds} {key : Uuid × ReviewKind × String}
    (h : (manualMatch p run item target ids).Concerns key) :
    key = (run.id, .statement, item.itemId) ∨ key = (run.id, .ledger, target.text) := by
  obtain ⟨r, _ | _, itemId⟩ := key
  · exact .inl (by rw [← h.1, ← h.2]; rfl)
  · exact .inr (by rw [← h.1, ← h.2]; rfl)

/-- A link leaves the item of its row to be written; every other item is right. -/
theorem ReviewLinked.truthful {p : StatementMeta} {run : StatementRun} {item : ReviewItem}
    {target : Uuid} {ids : ReviewIds} {t : Table StatementMatch.id}
    (h : ReviewLinked s s' p run item target ids t) (hrun : item.runId = run.id)
    (hs : Truthful s) : TruthfulOn (fun k => k ≠ item.key) s' ∧ s'.HasMatch item.key := by
  have hkey : item.key = (run.id, .statement, item.itemId) := by
    rw [ReviewItem.key, h.kind, hrun]
  -- The new match concerns two keys, that of the row and that of the posting.
  have hlinked : TruthfulOn (fun k => k ≠ item.key ∧ k ≠ (run.id, .ledger, target.text))
      { s with statementMatches := t } := by
    intro x hx hne
    rw [hasMatch_insert h.recorded, hs x hx]
    refine ⟨.inr, fun hor => hor.resolve_left fun hconcerns => ?_⟩
    rcases manualMatch_concerns hconcerns with heq | heq
    · exact hne.1 (heq.trans hkey.symm)
    · exact hne.2 heq
  have hhas : { s with statementMatches := t }.HasMatch item.key := by
    rw [hasMatch_insert h.recorded, hkey]
    exact .inl ⟨rfl, rfl⟩
  -- The posting may have an item of its own, which is advanced to matched with it.
  rcases h.ledger with ⟨hnone, rfl⟩ | ⟨i, hi, hadvanced⟩
  · exact ⟨fun x hx hne => hlinked x hx ⟨hne, Table.find?_eq_none.mp hnone x hx⟩, hhas⟩
  · have hkeyi := Table.key_of_find? hi
    have hmatch : { s with statementMatches := t }.HasMatch i.key := by
      rw [hasMatch_insert h.recorded, hkeyi]
      exact .inl ⟨rfl, rfl⟩
    have hright : TruthfulOn (fun k => k ≠ item.key) s' := by
      refine TruthfulOn.advance ?_ hadvanced rfl ⟨fun _ => hmatch, fun _ => rfl⟩
      rw [hkeyi]
      exact hlinked
    obtain ⟨m, hm, hconcerns⟩ := hhas
    exact ⟨hright, m, hadvanced.extends.recorded hm, hconcerns⟩

/-- A review keeps every status right, unless it is of the item of a matched posting. -/
theorem Reviewed.truthful {p : StatementMeta} {run : StatementRun} {item : ReviewItem}
    {d : ReviewDecision} {ids : ReviewIds} {mid : StatementDb}
    (h : Reviewed s s' p run item d ids mid) (hs : Truthful s)
    (hspared : item.kind = .ledger → ¬s.HasMatch item.key) : Truthful s' := by
  obtain ⟨status, hstatus, hwritten⟩ := h.written
  have hall : ∀ {s₁ : StatementDb}, Truthful s₁ → TruthfulOn (fun k => True ∧ k ≠ item.key) s₁ :=
    fun hs₁ x hx _ => hs₁ x hx
  rw [truthful_iff]
  cases h.step with
  -- Left unmatched: the item had no match, and no match is added.
  | unmatched hne hnone =>
    refine (hall hs).advance hwritten rfl ?_
    have hnot : ¬s.HasMatch item.key := by
      rcases hkind : item.kind with _ | _
      · exact (StatementDb.existingPosting_eq_none hkind).mp hnone
      · exact hspared hkind
    refine ⟨fun heq => absurd ?_ hne, fun hhas => absurd hhas hnot⟩
    rw [hstatus, ← heq]
    rfl
  -- Matched again: the row has its match already.
  | again heq hkind hsome =>
    refine (hall hs).advance hwritten rfl ?_
    have hhas : s.HasMatch item.key := by
      by_contra hnot
      exact hsome ((StatementDb.existingPosting_eq_none hkind).mpr hnot)
    rw [hstatus, Option.some.injEq] at heq
    exact ⟨fun _ => hhas, fun _ => heq⟩
  -- Linked: the match is added, and only the key of the item is left to check.
  | linked heq hlinked =>
    obtain ⟨hothers, hhas⟩ := hlinked.truthful h.item_run hs
    rw [hstatus, Option.some.injEq] at heq
    refine TruthfulOn.advance (fun x hx hne => hothers x hx hne.2) hwritten rfl ?_
    exact ⟨fun _ => hhas, fun _ => heq⟩

/-- Advancing an item keeps the items settled. -/
theorem Settled.advance (h : Settled s) {item next : ReviewItem}
    (hadvanced : Advanced item next s s') (hfind : s.reviewItems.find? item.key = some item)
    (hkey : next.key = item.key) : Settled s' := by
  refine h.step hadvanced.extends (fun m hm => .inl ?_) fun i hi => .inl ?_
  · obtain ⟨v, e, events, -, -, -, -, -, rfl⟩ := hadvanced
    exact hm
  · obtain ⟨i₀, hi₀, heq⟩ := hadvanced.mem hfind hkey hi
    exact ⟨i₀, hi₀, congrArg Prod.fst heq⟩

/-- A review keeps the items settled. -/
theorem Reviewed.settled {p : StatementMeta} {run : StatementRun} {item : ReviewItem}
    {d : ReviewDecision} {ids : ReviewIds} {mid : StatementDb}
    (h : Reviewed s s' p run item d ids mid) (hs : Settled s) : Settled s' := by
  obtain ⟨status, -, hwritten⟩ := h.written
  suffices hmid : Settled mid from hmid.advance hwritten h.find_item rfl
  cases h.step with
  | unmatched => exact hs
  | again => exact hs
  | linked hstatus hlinked =>
    rename_i target t
    have hext := extends_insert_match hlinked.recorded
    have hmatched : Settled { s with statementMatches := t } := by
      refine hs.step hext (fun m hm => ?_) fun i hi => .inl ⟨i, hi, rfl⟩
      rcases (Table.mem_insert? hlinked.recorded).mp hm with rfl | hm
      · exact .inr ⟨run, h.run_find, h.run_state⟩
      · exact .inl hm
    rcases hlinked.ledger with ⟨-, rfl⟩ | ⟨i, hi, hadvanced⟩
    · exact hmatched
    · rw [← Table.key_of_find? hi] at hi
      exact hmatched.advance hadvanced hi rfl

/-- A call that changes no match and no review item. -/
theorem Settled.unchanged (h : Settled s) (hext : s.Extends s')
    (hmatches : s'.statementMatches = s.statementMatches)
    (hitems : s'.reviewItems = s.reviewItems) : Settled s' :=
  h.step hext (fun _ hm => .inl (hmatches ▸ hm)) fun i hi => .inl ⟨i, hitems ▸ hi, rfl⟩

/-- The items stay truthful while neither table changes. -/
theorem Truthful.unchanged (h : Truthful s) (hmatches : s'.statementMatches = s.statementMatches)
    (hitems : s'.reviewItems = s.reviewItems) : Truthful s' := by
  unfold Truthful StatementDb.HasMatch at h ⊢
  rw [hmatches, hitems]
  exact h

/-- A command that only notes something changes neither matches nor items. -/
theorem StatementDb.Noted.unchanged (h : s.Noted s') :
    s'.statementMatches = s.statementMatches ∧ s'.reviewItems = s.reviewItems := by
  rw [h]
  exact ⟨rfl, rfl⟩

/-- The call is not a review of the item of a posting that is matched in its run. -/
def StatementCall.SparesMatched (s : StatementDb) : StatementCall → Prop
  | .review _ _ target decision _ => ¬(decision.text? "kind" = some "ledger" ∧
      ∃ m ∈ s.statementMatches, m.runId = target ∧
        decision.text? "item_id" = some m.postingId.text)
  | _ => True

/-- A decision has the kind and the item that it names. -/
theorem reviewDecision?_fields {decision : Json} {d : ReviewDecision}
    (h : reviewDecision? decision = some d) :
    d.kind = (decision.text? "kind").bind ReviewKind.ofText? ∧
      d.itemId = decision.text? "item_id" := by
  unfold reviewDecision? at h
  split at h
  · simp only [Option.bind_eq_bind, Option.bind_eq_some_iff] at h
    obtain ⟨_, -, _, -, _, -, _, -, _, -, h⟩ := h
    split_ifs at h
    cases h
    exact ⟨rfl, rfl⟩
  · cases h

/-- Only one text names the kind of the ledger. -/
theorem ReviewKind.ofText?_eq_ledger {k : String} (h : ReviewKind.ofText? k = some .ledger) :
    k = "ledger" := by
  unfold ReviewKind.ofText? at h
  split_ifs at h with hstatement hledger
  · cases h
  · exact hledger

/-- One call keeps the statuses right, unless it reviews the item of a matched posting. -/
theorem StatementEffect.truthful {c : StatementCall} (h : StatementEffect env s c s') (hw : Wired s)
    (hsettled : Settled s) (hs : Truthful s) (hc : c.SparesMatched s) :
    Truthful s' ∧ Settled s' := by
  have hext := h.extends
  cases h with
  -- No call but the completion and the review writes matches or items.
  | noted h => exact ⟨hs.unchanged h.unchanged.1 h.unchanged.2,
      hsettled.unchanged hext h.unchanged.1 h.unchanged.2⟩
  | ledger h => exact ⟨hs.unchanged rfl rfl, hsettled.unchanged hext rfl rfl⟩
  | mapped h noted =>
    have hmatches := noted.unchanged.1.trans (by rw [h.frame])
    have hitems := noted.unchanged.2.trans (by rw [h.frame])
    exact ⟨hs.unchanged hmatches hitems, hsettled.unchanged hext hmatches hitems⟩
  | imported h noted =>
    have hmatches := noted.unchanged.1.trans (by rw [h.frame])
    have hitems := noted.unchanged.2.trans (by rw [h.frame])
    exact ⟨hs.unchanged hmatches hitems, hsettled.unchanged hext hmatches hitems⟩
  | prepared h noted =>
    have hmatches := noted.unchanged.1.trans (by rw [h.frame])
    have hitems := noted.unchanged.2.trans (by rw [h.frame])
    exact ⟨hs.unchanged hmatches hitems, hsettled.unchanged hext hmatches hitems⟩
  | completed h noted =>
    exact ⟨(h.truthful hw hsettled hs).unchanged noted.unchanged.1 noted.unchanged.2,
      (h.settled hsettled).unchanged noted.extends noted.unchanged.1 noted.unchanged.2⟩
  | reviewed decided h noted =>
    rename_i sess p decision ids run item d mid s₁
    refine ⟨(h.truthful hs fun hkind => ?_).unchanged noted.unchanged.1 noted.unchanged.2,
      (h.settled hsettled).unchanged noted.extends noted.unchanged.1 noted.unchanged.2⟩
    obtain ⟨hk, hi⟩ := reviewDecision?_fields decided
    -- A match on the ledger item itself is what sparing excludes.
    rintro ⟨m, hm, hconcerns⟩
    rw [ReviewItem.key, hkind] at hconcerns
    rw [h.kind, hkind] at hk
    obtain ⟨k, htext, hledger⟩ := Option.bind_eq_some_iff.mp hk.symm
    refine hc ⟨?_, m, hm, hconcerns.1.trans h.item_run, ?_⟩
    · rw [htext, ReviewKind.ofText?_eq_ledger hledger]
    · rw [← hi, h.itemId, hconcerns.2]

end Status

/-- In a history in which nobody reviews the item of a posting that is matched in its run, every
status tells the truth all along. Whatever the history, a match that is recorded stays as it is. -/
theorem review_status_truthful (env : StatementEnv) (s₀ : StatementDb) (h₀ : s₀.Initial)
    (cs : List StatementCall) (hcs : ∀ pre c post, cs = pre ++ c :: post →
      c.SparesMatched (run (execStatement env) pre s₀)) :
    ∀ l, l <+: cs → Truthful (run (execStatement env) l s₀) ∧
      ∀ l', l' <+: l → ∀ m ∈ (run (execStatement env) l' s₀).statementMatches,
        m ∈ (run (execStatement env) l s₀).statementMatches := by
  -- The status is true in every prefix by the invariant; a match once stored is never removed.
  intro l hl
  constructor
  · have hinv : Wired (run (execStatement env) l s₀) ∧ Truthful (run (execStatement env) l s₀) ∧
        Settled (run (execStatement env) l s₀) := by
      refine run_prefix_invariant (I := fun s => Wired s ∧ Truthful s ∧ Settled s) ?_ ?_ hl
      · rintro pre c post hsplit u s' hstep ⟨hw, ht, hsettled⟩
        have heffect := execStatement_effect hstep
        exact ⟨heffect.wired hw, heffect.truthful hw hsettled ht (hcs pre c post hsplit)⟩
      · refine ⟨h₀.wired, fun i hi => ?_, fun m hm => ?_, fun i hi => ?_⟩
        · rw [Table.mem_def, h₀.reviewItems] at hi
          cases hi
        · rw [Table.mem_def, h₀.statementMatches] at hm
          cases hm
        · rw [Table.mem_def, h₀.reviewItems] at hi
          cases hi
    exact hinv.2.1
  · rintro l' ⟨rest, rfl⟩ m hm
    rw [run_append]
    exact run_invariant (I := fun s => m ∈ s.statementMatches)
      (fun _ _ _ _ hstep hmem => (execStatement_effect hstep).extends.recorded hmem) rest hm

namespace Sample

/-- SHA-256 of the arguments of the statement commands below. -/
def statementDigests : List (String × Bytes) :=
  [("[\"00000000-0000-0000-0000-00000000000a\", \"clearing\"]",
      [233, 14, 157, 28, 78, 218, 52, 194, 160, 65, 149, 239, 118, 219, 172, 206, 160, 155, 165,
        193, 99, 242, 103, 160, 126, 233, 249, 20, 151, 78, 243, 3]),
    ("[\"00000000-0000-0000-0000-0000000001f4\", \"9dff25455ddfd99bac4dc0acc1ace5e5d" ++
        "a6ea81b6e5bc28d9d2678a2db388586\"]",
      [59, 42, 196, 145, 147, 192, 200, 91, 191, 16, 93, 141, 83, 66, 244, 129, 235, 235, 115, 26,
        220, 174, 209, 155, 109, 28, 4, 109, 81, 8, 76, 102]),
    ("[\"00000000-0000-0000-0000-0000000001fe\", 1]",
      [6, 195, 232, 59, 143, 109, 194, 227, 243, 125, 17, 49, 160, 72, 229, 49, 39, 165, 72, 248,
        173, 140, 248, 35, 221, 198, 40, 179, 26, 88, 157, 88]),
    ("[\"00000000-0000-0000-0000-000000000208\", \x7b\"kind\": \"statement\", \"reas" ++
        "on\": \"checked\", \"status\": \"matched\", \"comment\": \"\", \"item_id\": \"" ++
        "r1\", \"assignee\": \"\", \"evidence\": \"\", \"posting_id\": \"00000000-0000-" ++
        "0000-0000-000000000066\", \"expected_version\": \"0\"\x7d]",
      [130, 28, 168, 137, 204, 107, 176, 155, 53, 82, 47, 166, 93, 159, 237, 63, 121, 63, 12, 145,
        115, 245, 155, 145, 234, 2, 87, 73, 221, 11, 14, 115]),
    ("[\"00000000-0000-0000-0000-000000000208\", \x7b\"kind\": \"ledger\", \"reason\"" ++
        ": \"checked\", \"status\": \"open\", \"comment\": \"\", \"item_id\": \"0000000" ++
        "0-0000-0000-0000-000000000066\", \"assignee\": \"\", \"evidence\": \"\", \"pos" ++
        "ting_id\": \"\", \"expected_version\": \"1\"\x7d]",
      [171, 127, 46, 197, 60, 228, 66, 166, 242, 9, 235, 110, 156, 119, 114, 252, 128, 24, 50,
        183, 19, 151, 158, 115, 90, 58, 88, 199, 94, 184, 101, 176])]

/-- The file is recorded with its digest, postings are recorded as they occur, and texts are
compared by their characters. -/
def statementEnv : StatementEnv where
  digest := digestOf (digests ++ statementDigests)
  sha256 _ :=
    [157, 255, 37, 69, 93, 223, 217, 155, 172, 77, 192, 172, 193, 172, 229, 229, 218, 110, 168,
      27, 110, 91, 194, 141, 157, 38, 120, 162, 219, 56, 133, 134]
  recordedAt _ := instant (hour 0)
  collate x y := x ≤ y

/-- The arguments that the commands share. -/
def statementMeta (key : String) : StatementMeta := ⟨tenant, alice, key, uuid 5⟩

/-- What a command draws. -/
def commandIds (audit : Uuid) : CommandIds := ⟨audit, instant (hour 1)⟩

/-- The source account is mapped to `clearing`. -/
def mapAccount : StatementCall :=
  .mapping session (statementMeta "sample-mapping-01") source "clearing" (uuid 500)
    (commandIds (uuid 501))

/-- The sample file is imported. -/
def importFile : StatementCall :=
  .importFile session (statementMeta "sample-import-001") (uuid 500) statementSource (uuid 510)
    (commandIds (uuid 511))

/-- A run is prepared over the transfer of 100. -/
def prepareRun : StatementCall :=
  .prepare session (statementMeta "sample-prepare-01") (uuid 510) (instant (hour 2)) (uuid 520)
    (commandIds (uuid 521))

/-- The run is completed. No posting has the reference of the row. -/
def completeRun : StatementCall :=
  .complete session
    ⟨tenant, alice, uuid 520, .obj [("rows", .arr [.obj [("row_id", .str "r1"),
      ("status", .str "unmatched_external"), ("candidates", .arr [])]]), ("matches", .arr [])]⟩
    ⟨commandIds (uuid 531), fun _ => uuid 532, instant (hour 3)⟩

/-- A decision on a review item. -/
def decision (kind status item posting version : String) : Json :=
  .obj [("kind", .str kind), ("reason", .str "checked"), ("status", .str status),
    ("comment", .str ""), ("item_id", .str item), ("assignee", .str ""), ("evidence", .str ""),
    ("posting_id", .str posting), ("expected_version", .str version)]

/-- The decision to link the row with the debit of the transfer. -/
def linkDecision : Json := decision "statement" "matched" "r1" (uuid 102).text "0"

/-- The row is linked with the debit of the transfer. -/
def linkRow : StatementCall :=
  .review session (statementMeta "sample-review-001") (uuid 520) linkDecision
    ⟨commandIds (uuid 541), uuid 542, uuid 543, uuid 544⟩

/-- The same decision under another key, by an operator who still sees the row as it was. -/
def linkRowAgain : StatementCall :=
  .review session (statementMeta "sample-review-003") (uuid 520) linkDecision
    ⟨commandIds (uuid 561), uuid 562, uuid 563, uuid 564⟩

/-- The item of the debit is opened again. -/
def reopenPosting : StatementCall :=
  .review session (statementMeta "sample-review-002") (uuid 520)
    (decision "ledger" "open" (uuid 102).text "" "1")
    ⟨commandIds (uuid 551), uuid 552, uuid 553, uuid 554⟩

/-- The binding that `mapAccount` fixes. -/
def binding : StatementMapping := ⟨uuid 500, tenant, "clearing", source, alice⟩

/-- The rest of the import, once its file is parsed. -/
def storeFile : StatementProc Unit :=
  Txn.discard (do
    storeStatement statementEnv (statementMeta "sample-import-001") binding statementSource
      (uuid 510) statement
    statementStoreCommandV1 session (statementMeta "sample-import-001") "import"
      (statementEnv.fingerprint [.str (uuid 500).text,
        .str (hexText (statementEnv.sha256 statementSource))]) (uuid 510) (commandIds (uuid 511)))

/-- The database with the mapping. -/
def mapped : StatementDb := commit (execStatement statementEnv mapAccount) statementDb

/-- The sample file is parsed once and for all: evaluating the parser takes long. -/
theorem commit_importFile :
    commit (execStatement statementEnv importFile) mapped = commit storeFile mapped := by
  have hfacts : session.Allows tenant ∧ mapped.mappings.find? (uuid 500) = some binding ∧
      mapped.imports.rows.length = 0 ∧
      (mapped.commands.find? (tenant, alice, "import", "sample-import-001")).isNone = true ∧
      IsKey "sample-import-001" := by
    decide +kernel
  obtain ⟨hscope, hbinding, himports, hnew, hkey⟩ := hfacts
  exact commit_importFile_of_new length_statementSource ⟨hscope, rfl⟩ hkey
    (Option.isNone_iff_eq_none.mp hnew) hbinding rfl (List.length_eq_zero_iff.mp himports)
    importText_statementSource

/-- The calls up to the manual link. -/
def linking : List StatementCall :=
  [mapAccount, importFile, .ledger transfer, prepareRun, completeRun, linkRow]

/-- The calls behind the import are run over the stored file. -/
theorem run_linking (cs : List StatementCall) :
    run (execStatement statementEnv) (linking ++ cs) statementDb =
      run (execStatement statementEnv)
        ([.ledger transfer, prepareRun, completeRun, linkRow] ++ cs) (commit storeFile mapped) := by
  unfold linking
  simp only [List.cons_append, List.nil_append]
  rw [run_cons, run_cons, show commit (execStatement statementEnv mapAccount) statementDb = mapped
    from rfl, commit_importFile]

/-- After the link a match is recorded, and the row has another version than its decision expects;
and after the posting is reopened its item is not matched, while the match stays. -/
theorem linking_facts :
    ((run (execStatement statementEnv) [.ledger transfer, prepareRun, completeRun, linkRow]
        (commit storeFile mapped)).statementMatches.rows.any fun m =>
      decide (m.rowId = "r1" ∧ m.postingId = uuid 102)) = true ∧
    ((reviewDecision? linkDecision).any fun d => ((run (execStatement statementEnv)
        [.ledger transfer, prepareRun, completeRun, linkRow] (commit storeFile mapped)).reviewed?
          (uuid 520) d).any fun item =>
        decide (castBigint d.expectedVersion ≠ some item.version)) = true ∧
    ((run (execStatement statementEnv)
        [.ledger transfer, prepareRun, completeRun, linkRow, reopenPosting]
        (commit storeFile mapped)).reviewItems.rows.any fun i =>
      decide (i.status ≠ .matched ∧ i.runId = uuid 520 ∧ i.kind = .ledger ∧
        i.itemId = (uuid 102).text)) = true ∧
    ((run (execStatement statementEnv)
        [.ledger transfer, prepareRun, completeRun, linkRow, reopenPosting]
        (commit storeFile mapped)).statementMatches.rows.any fun m =>
      decide (m.runId = uuid 520 ∧ m.postingId = uuid 102)) = true := by
  decide +kernel

end Sample

/-- The row of the sample file is linked with the debit of the transfer. The evidence is used once,
and the same decision of an operator who still sees the row as it was changes nothing. -/
theorem evidence_consumed_once_sample : Sample.statementDb.Initial ∧
    ConsumedOnce (run (execStatement Sample.statementEnv) Sample.linking Sample.statementDb) ∧
    (∃ m ∈ (run (execStatement Sample.statementEnv) Sample.linking
      Sample.statementDb).statementMatches, m.rowId = "r1" ∧ m.postingId = Sample.uuid 102) ∧
    commit (execStatement Sample.statementEnv Sample.linkRowAgain)
        (run (execStatement Sample.statementEnv) Sample.linking Sample.statementDb) =
      run (execStatement Sample.statementEnv) Sample.linking Sample.statementDb := by
  obtain ⟨hmatch, hreview, -⟩ := Sample.linking_facts
  have hrun := Sample.run_linking []
  rw [List.append_nil, List.append_nil] at hrun
  rw [← hrun] at hmatch hreview
  obtain ⟨hconsumed, hstale⟩ := evidence_consumed_once Sample.statementEnv Sample.statementDb
    Sample.statementDb_initial Sample.linking
  obtain ⟨m, hm, hlinked⟩ := List.any_eq_true.mp hmatch
  obtain ⟨d, hd, hitem⟩ := (Option.any_eq_true _ _).mp hreview
  obtain ⟨item, hfind, hversion⟩ := (Option.any_eq_true _ _).mp hitem
  have hseen : StaleReview (run (execStatement Sample.statementEnv) Sample.linking
      Sample.statementDb) (Sample.uuid 520) Sample.linkDecision :=
    ⟨d, item, hd, hfind, of_decide_eq_true hversion⟩
  exact ⟨Sample.statementDb_initial, hconsumed, ⟨m, hm, of_decide_eq_true hlinked⟩,
    hstale _ _ _ _ _ hseen⟩

/-- After the import of the sample file, its run and the manual link of its row, every status tells
the truth. -/
theorem review_status_truthful_sample : Sample.statementDb.Initial ∧
    Truthful (run (execStatement Sample.statementEnv) Sample.linking Sample.statementDb) := by
  have hspares : ∀ c ∈ Sample.linking, ∀ s, c.SparesMatched s := by
    intro c hc s
    simp only [Sample.linking, List.mem_cons, List.not_mem_nil, or_false] at hc
    rcases hc with rfl | rfl | rfl | rfl | rfl | rfl
    · trivial
    · trivial
    · trivial
    · trivial
    · trivial
    · -- The one review of the history is of a row.
      rintro ⟨hkind, -⟩
      have hrow : "statement" = "ledger" := Option.some.inj hkind
      exact absurd hrow (by decide)
  refine ⟨Sample.statementDb_initial, (review_status_truthful Sample.statementEnv
    Sample.statementDb Sample.statementDb_initial Sample.linking (fun pre c post hcs => ?_)
    Sample.linking List.prefix_rfl).1⟩
  refine hspares c ?_ _
  rw [hcs]
  exact List.mem_append_right _ List.mem_cons_self

/-- The row of the sample file is linked with the debit of the transfer, and the item of the debit
is opened again: it is not matched, while the match is recorded. -/
theorem matched_posting_reopened : Sample.statementDb.Initial ∧
    ¬Truthful (run (execStatement Sample.statementEnv) (Sample.linking ++ [Sample.reopenPosting])
      Sample.statementDb) := by
  refine ⟨Sample.statementDb_initial, fun htruth => ?_⟩
  obtain ⟨-, -, hitem⟩ := Sample.linking_facts
  rw [Sample.run_linking] at htruth
  simp only [List.cons_append, List.nil_append] at htruth
  obtain ⟨i, hi, hfacts⟩ := List.any_eq_true.mp hitem.1
  obtain ⟨hstatus, hrun, hkind, hid⟩ := of_decide_eq_true hfacts
  obtain ⟨m, hm, hmatch⟩ := List.any_eq_true.mp hitem.2
  obtain ⟨hmrun, hposting⟩ := of_decide_eq_true hmatch
  refine hstatus ((htruth i hi).mpr ⟨m, hm, ?_⟩)
  rw [ReviewItem.key, hkind, hrun, hid]
  exact ⟨hmrun, congrArg Uuid.text hposting⟩

end LedgerSync
