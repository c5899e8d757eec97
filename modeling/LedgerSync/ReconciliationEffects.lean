import LedgerSync.Reconciliation

/-!
# What a call of the reconciliation did

Each procedure has one lemma that says what it did when it returned, and `StatementEffect` collects
them: the rows that a call added, the run that it completed, the item that it reviewed. The loop of
a completion is a chain of its rows (`RowsDone`). Stored commands and the audit trail are kept apart
(`StatementDb.Noted`), because nothing else reads them.
-/

namespace LedgerSync

open Lib

/-! ## What a call did -/

section Effects

variable {env : StatementEnv} {sess : Session} {p : StatementMeta} {s s' : StatementDb}

/-- A procedure of the ledger returns on the whole when it returns on the ledger. -/
theorem onLedger_ok {α : Type} {x : Proc α} {a : α} :
    onLedger x s = .ok (a, s') ↔ ∃ l, x s.ledger = .ok (a, l) ∧ s' = { s with ledger := l } :=
  Txn.zoom_ok

/-- Only stored commands and the audit trail differ. -/
def StatementDb.Noted (s s' : StatementDb) : Prop :=
  s' = { s with commands := s'.commands, ledger := { s.ledger with audit := s'.ledger.audit } }

/-- An entry in the audit trail. -/
theorem noted_of_audit {e : AuditEvent} {u : Unit}
    (h : onLedger (controlledAppendAuditV1 sess e) s = .ok (u, s')) : s.Noted s' := by
  obtain ⟨l, hl, rfl⟩ := onLedger_ok.mp h
  obtain ⟨t, -, rfl⟩ := controlledAppendAuditV1_ok hl
  rfl

/-- Storing the answer of a command only notes it. -/
theorem statementStoreCommandV1_ok {op : String} {fp : Bytes} {resource : Uuid} {ids : CommandIds}
    {r : Json} (h : statementStoreCommandV1 sess p op fp resource ids s = .ok (r, s')) :
    s.Noted s' := by
  simp only [statementStoreCommandV1, Txn.get_bind_ok, Txn.orRaise_bind_ok, Txn.set_bind_ok] at h
  obtain ⟨t, -, h⟩ := h
  obtain ⟨u, s₁, haudit, h⟩ := Txn.bind_ok.mp h
  obtain ⟨-, rfl⟩ := Txn.pure_ok.mp h
  have hnoted := noted_of_audit haudit
  unfold StatementDb.Noted at hnoted ⊢
  rw [hnoted]

/-- A command was stored before, or it ran. -/
theorem statementCommand_ok {op : String} {fp : Bytes} {body : StatementProc Json} {r : Json}
    (h : statementCommand sess p op fp body s = .ok (r, s')) : s' = s ∨ body s = .ok (r, s') := by
  simp only [statementCommand, statementExistingCommandV1, Txn.bind_assoc, Txn.raiseIf_bind_ok,
    Txn.get_bind_ok] at h
  obtain ⟨-, -, h⟩ := h
  split at h
  · exact .inr h
  · simp only [Txn.bind_assoc, Txn.raiseIf_bind_ok] at h
    exact .inl (Txn.pure_ok.mp h.2).2.symm

/-- A new mapping. -/
structure Mapped (s s' : StatementDb) (m : StatementMapping) : Prop where
  ref : IsToken m.sourceAccountRef
  mappings : s.mappings.insert? m = some s'.mappings
  frame : s' = { s with mappings := s'.mappings }

/-- A mapping is noted, and made when the command is new. -/
theorem controlledStatementMappingV1_ok {account : Uuid} {sourceRef : String} {id : Uuid}
    {ids : CommandIds} {r : Json}
    (h : controlledStatementMappingV1 env sess p account sourceRef id ids s = .ok (r, s')) :
    s.Noted s' ∨ ∃ m s₁, Mapped s s₁ m ∧ s₁.Noted s' := by
  obtain rfl | h := statementCommand_ok h
  · exact .inl rfl
  simp only [Txn.get_bind_ok, Txn.raiseIf_bind_ok, not_or, not_not] at h
  obtain ⟨⟨href, -⟩, h⟩ := h
  obtain ⟨mapping, s₁, hfix, hstore⟩ := Txn.bind_ok.mp h
  have hnoted := statementStoreCommandV1_ok hstore
  simp only [fixMapping, Txn.get_bind_ok] at hfix
  rcases hm : s.mappingOf p.tenant with _ | m
  · simp only [hm, Txn.orRaise_bind_ok, Txn.set_bind_ok, Txn.pure_ok] at hfix
    obtain ⟨t, ht, -, rfl⟩ := hfix
    exact .inr ⟨_, _, ⟨href, ht, rfl⟩, hnoted⟩
  · simp only [hm, Txn.raiseIf_bind_ok, Txn.pure_ok] at hfix
    obtain ⟨-, -, rfl⟩ := hfix
    exact .inl hnoted

/-- A new import with its rows. -/
structure Imported (s s' : StatementDb) (i : StatementImport) (st : Statement) : Prop where
  binding : ∃ b, s.mappings.find? i.mappingId = some b ∧ b.tenantId = i.tenantId ∧
    importText b.sourceAccountRef i.sourceBytes = .ok st
  imports : s.imports.insert? i = some s'.imports
  rows : s.statementRows.insertAll? (st.rows.map fun r => r.stored i.id i.tenantId i.mappingId) =
    some s'.statementRows
  frame : s' = { s with imports := s'.imports, statementRows := s'.statementRows }

/-- An import that returns has read a statement of its mapping. -/
theorem importSource_ok {binding : StatementMapping} {source : Bytes} {id : Uuid} {u : Unit}
    (hbinding : s.mappings.find? binding.id = some binding) (htenant : binding.tenantId = p.tenant)
    (h : importSource env p binding source id s = .ok (u, s')) : ∃ i st, Imported s s' i st := by
  simp only [importSource, storeStatement, Txn.get_bind_ok, Txn.raiseIf_bind_ok, Txn.ofExcept_bind_ok,
    Txn.orRaise_bind_ok, Txn.set_ok] at h
  obtain ⟨-, st, hst, -, imports, himports, rows, hrows, rfl⟩ := h
  exact ⟨_, st, ⟨binding, hbinding, htenant, hst⟩, himports, hrows, rfl⟩

/-- An import is noted, and made when the command is new. -/
theorem controlledStatementImportV1_ok {mapping : Uuid} {source : Bytes} {id : Uuid}
    {ids : CommandIds} {r : Json}
    (h : controlledStatementImportV1 env sess p mapping source id ids s = .ok (r, s')) :
    s.Noted s' ∨ ∃ i st s₁, Imported s s₁ i st ∧ s₁.Noted s' := by
  obtain ⟨-, h⟩ := Txn.raiseIf_bind_ok.mp h
  obtain rfl | h := statementCommand_ok h
  · exact .inl rfl
  simp only [Txn.get_bind_ok, Txn.orRaise_bind_ok, Option.filter_eq_some_iff,
    decide_eq_true_eq] at h
  obtain ⟨binding, ⟨hbinding, htenant⟩, h⟩ := h
  rcases hfound : s.imports.rows.find? fun i =>
      i.mappingId = mapping ∧ i.sourceSha256 = env.sha256 source with _ | i
  · rw [hfound] at h
    obtain ⟨_, s₁, himport, hstore⟩ := Txn.bind_ok.mp h
    rw [← Table.key_of_find? hbinding] at hbinding
    obtain ⟨i, st, himported⟩ := importSource_ok hbinding htenant himport
    exact .inr ⟨i, st, s₁, himported, statementStoreCommandV1_ok hstore⟩
  · rw [hfound] at h
    obtain ⟨response, s₁, hstore, h⟩ := Txn.bind_ok.mp h
    obtain ⟨-, rfl⟩ := Txn.pure_ok.mp h
    exact .inl (statementStoreCommandV1_ok hstore)

/-- A new run with its snapshot, for an import that had none. -/
structure Prepared (env : StatementEnv) (s s' : StatementDb) (run : StatementRun) : Prop where
  source : ∃ i b items, s.imports.find? run.importId = some i ∧ i.mappingId = run.mappingId ∧
    i.tenantId = run.tenantId ∧ s.mappings.find? run.mappingId = some b ∧
    (firstPostings (s.unmatchedPostings env i b run.cutoff)).mapM (s.snapshotOf? env run) =
      some items ∧
    items.length ≤ 2000 ∧ s.snapshotItems.insertAll? items = some s'.snapshotItems
  first : ∀ r ∈ s.runs, r.importId ≠ run.importId
  state : run.state = .prepared
  runs : s.runs.insert? run = some s'.runs
  frame : s' = { s with runs := s'.runs, snapshotItems := s'.snapshotItems }

/-- A snapshot of a new run is prepared from its import and its mapping. -/
theorem prepareSnapshot_ok {run : StatementRun} {source : StatementImport}
    {binding : StatementMapping} {u : Unit} (hsource : s.imports.find? run.importId = some source)
    (hmapping : source.mappingId = run.mappingId) (htenant : source.tenantId = run.tenantId)
    (hbinding : s.mappings.find? run.mappingId = some binding)
    (hfirst : ∀ r ∈ s.runs, r.importId ≠ run.importId) (hstate : run.state = .prepared)
    (h : prepareSnapshot env run source binding s = .ok (u, s')) : Prepared env s s' run := by
  simp only [prepareSnapshot, Txn.get_bind_ok, Txn.orRaise_bind_ok, Txn.raiseIf_bind_ok,
    Txn.set_ok, not_lt] at h
  obtain ⟨runs, hruns, items, hitems, -, snapshot, hsnapshot, hlimit, rfl⟩ := h
  exact ⟨⟨source, binding, items, hsource, hmapping, htenant, hbinding, hitems, hlimit, hsnapshot⟩,
    hfirst, hstate, hruns, rfl⟩

/-- A preparation is noted, and made when the command is new. -/
theorem controlledStatementPrepareV1_ok {sourceImport : Uuid} {cutoff : Instant} {id : Uuid}
    {ids : CommandIds} {r : Json}
    (h : controlledStatementPrepareV1 env sess p sourceImport cutoff id ids s = .ok (r, s')) :
    s.Noted s' ∨ ∃ run s₁, Prepared env s s₁ run ∧ s₁.Noted s' := by
  -- A command repeated changes nothing.
  obtain rfl | h := statementCommand_ok h
  · exact .inl rfl
  simp only [Txn.get_bind_ok, Txn.orRaise_bind_ok, Option.filter_eq_some_iff,
    decide_eq_true_eq] at h
  obtain ⟨source, ⟨hsource, htenant⟩, binding, ⟨hbinding, -⟩, h⟩ := h
  have hmapping := Table.key_of_find? hbinding
  -- The import has a run already, whose response is stored again, or it gets its first one.
  rcases hfound : s.runs.rows.find? fun r => r.importId = sourceImport with _ | x
  · rw [hfound] at h
    obtain ⟨_, s₁, hprepare, hstore⟩ := Txn.bind_ok.mp h
    have hfirst : ∀ r ∈ s.runs, r.importId ≠ sourceImport := fun x hx => by
      simpa using List.find?_eq_none.mp hfound x hx
    rw [← hmapping] at hbinding
    exact .inr ⟨_, s₁, prepareSnapshot_ok hsource hmapping.symm htenant hbinding hfirst rfl hprepare,
      statementStoreCommandV1_ok hstore⟩
  · rw [hfound] at h
    obtain ⟨response, s₁, hstore, h⟩ := Txn.bind_ok.mp h
    obtain ⟨-, rfl⟩ := Txn.pure_ok.mp h
    exact .inl (statementStoreCommandV1_ok hstore)

/-- A match that is inserted clashes with no other and is a new row. -/
theorem insertMatch_bind_ok {β : Type} {m : StatementMatch} {f : Unit → StatementProc β} {b : β} :
    (insertMatch m >>= f) s = .ok (b, s') ↔ (¬∃ x ∈ s.statementMatches.rows, m.Clashes x) ∧
      ∃ t, s.statementMatches.insert? m = some t ∧
        f () { s with statementMatches := t } = .ok (b, s') := by
  simp only [insertMatch, Txn.bind_assoc, Txn.get_bind_ok, Txn.raiseIf_bind_ok, Txn.orRaise_bind_ok,
    Txn.set_bind_ok]

/-- The match that a completion writes for a row. -/
def exactMatch (run : StatementRun) (actor : String) (ids : CompleteIds) (r : ImportedRow)
    (chosen : Uuid) : StatementMatch :=
  ⟨ids.statementMatch r.id, run.tenantId, run.mappingId, run.id, r.id, chosen, .exact, actor⟩

/-- What the loop of a completion did for one row. -/
inductive RowDone (run : StatementRun) (actor : String) (ids : CompleteIds) (r : ImportedRow) :
    StatementDb → StatementDb → Prop
  /-- The row is left to a review. -/
  | left {s : StatementDb} {c : Classification} {t : Table ReviewItem.key} (open_ : c ≠ .matched)
      (items : s.reviewItems.insert? (newItem run actor ids.now .statement r.id c) = some t) :
      RowDone run actor ids r s { s with reviewItems := t }
  /-- The row is matched with its only candidate. -/
  | matched {s : StatementDb} {chosen : Uuid} {t : Table StatementMatch.id}
      {t' : Table ReviewItem.key}
      (candidates : s.candidates run.id r.toStatementRow = [chosen])
      (new : ¬∃ x ∈ s.statementMatches.rows, (exactMatch run actor ids r chosen).Clashes x)
      (recorded : s.statementMatches.insert? (exactMatch run actor ids r chosen) = some t)
      (items : s.reviewItems.insert? (newItem run actor ids.now .statement r.id .matched) =
        some t') :
      RowDone run actor ids r s { s with statementMatches := t, reviewItems := t' }

/-- What the loop did for the rows that it has passed. -/
inductive RowsDone (run : StatementRun) (actor : String) (ids : CompleteIds) :
    List ImportedRow → StatementDb → StatementDb → Prop
  | nil (s : StatementDb) : RowsDone run actor ids [] s s
  | snoc {l : List ImportedRow} {r : ImportedRow} {s s₁ s' : StatementDb}
      (done : RowsDone run actor ids l s s₁) (row : RowDone run actor ids r s₁ s') :
      RowsDone run actor ids (l ++ [r]) s s'

/-- Finishing a row adds its item at version zero and no match. -/
theorem finishRow_ok {run : StatementRun} {actor : String} {now : Instant} {r : ImportedRow}
    {c : Classification} {acc acc' : RunProgress}
    (h : finishRow run actor now r c acc s = .ok (acc', s')) :
    acc'.matchedCount = acc.matchedCount ∧
      ∃ t, s.reviewItems.insert? (newItem run actor now .statement r.id c) = some t ∧
        s' = { s with reviewItems := t } := by
  simp only [finishRow, Txn.get_bind_ok, Txn.orRaise_bind_ok, Txn.set_bind_ok, Txn.pure_ok] at h
  obtain ⟨t, ht, rfl, rfl⟩ := h
  exact ⟨rfl, t, ht, rfl⟩

/-- Consuming the only candidate of a row adds its match and its item. -/
theorem consumeRow_ok {run : StatementRun} {actor : String} {ids : CompleteIds} {r : ImportedRow}
    {chosen : Uuid} {acc acc' : RunProgress}
    (hcandidates : s.candidates run.id r.toStatementRow = [chosen])
    (h : consumeRow run actor ids r chosen acc s = .ok (acc', s')) :
    acc'.matchedCount = acc.matchedCount ∧ RowDone run actor ids r s s' := by
  simp only [consumeRow, Txn.get_bind_ok] at h
  split_ifs at h with hused
  · obtain ⟨hcount, t, ht, rfl⟩ := finishRow_ok h
    exact ⟨hcount, .left (by decide) ht⟩
  · obtain ⟨hnew, t, ht, h⟩ := insertMatch_bind_ok.mp h
    obtain ⟨hcount, t', ht', rfl⟩ := finishRow_ok h
    exact ⟨hcount, .matched hcandidates hnew ht ht'⟩

/-- A row is expected to match when it has one candidate. -/
theorem StatementDb.expected_eq_matched {run : StatementRun} {r : StatementRow}
    (h : s.expected run r = .matched) : ∃ chosen, s.candidates run.id r = [chosen] := by
  unfold StatementDb.expected at h
  split_ifs at h with hone
  exact List.length_eq_one_iff.mp hone.1

/-- The work on a row that returns is done for that row. -/
theorem completeRow_ok {run : StatementRun} {actor : String} {ids : CompleteIds}
    {rows links : List Json} {acc acc' : RunProgress} {r : ImportedRow}
    (h : completeRow run actor ids rows links acc r s = .ok (acc', s')) :
    RowDone run actor ids r s s' := by
  simp only [completeRow, Txn.get_bind_ok, Txn.orRaise_bind_ok, Txn.raiseIf_bind_ok] at h
  obtain ⟨observed, -, -, h⟩ := h
  split_ifs at h with hexpected
  · obtain ⟨chosen, hcandidates⟩ := StatementDb.expected_eq_matched hexpected
    simp only [Txn.orRaise_bind_ok, Txn.raiseIf_bind_ok, hcandidates, List.head?_cons,
      Option.some.injEq] at h
    obtain ⟨_, rfl, -, h⟩ := h
    exact (consumeRow_ok hcandidates h).2
  · simp only [Txn.raiseIf_bind_ok] at h
    obtain ⟨-, t, ht, rfl⟩ := finishRow_ok h.2
    exact .left hexpected ht

/-- A run that was completed: the rows were gone through, and what is left of the snapshot became
review items. -/
structure RunCompleted (s s' : StatementDb) (run : StatementRun) (actor : String)
    (ids : CompleteIds) (rows : List ImportedRow) (mid : StatementDb) : Prop where
  find : s.runs.find? run.id = some run
  state : run.state = .prepared
  perm : rows.Perm (s.rowsOf run.importId)
  loop : RowsDone run actor ids rows s mid
  items : mid.reviewItems.insertAll? ((mid.unmatchedItems run.id).map fun i =>
    newItem run actor ids.now .ledger i.postingId.text
      (mid.ledgerClassification run.mappingId i)) = some s'.reviewItems
  runs : ∃ result, s'.runs = mid.runs.update run.id fun x =>
    { x with state := .completed, result := some result, completedAt := some ids.completedAt }
  frame : s' = { mid with reviewItems := s'.reviewItems, runs := s'.runs }

/-- A completion changes nothing, or completes its run and is noted. -/
theorem controlledStatementCompleteV1_ok {q : CompleteRequest} {ids : CompleteIds} {r : Json}
    (h : controlledStatementCompleteV1 env sess q ids s = .ok (r, s')) :
    s' = s ∨ ∃ run rows mid s₁, run.id = q.targetRun ∧
      RunCompleted s s₁ run q.actor ids rows mid ∧ s₁.Noted s' := by
  simp only [controlledStatementCompleteV1, Txn.raiseIf_bind_ok, Txn.get_bind_ok,
    Txn.orRaise_bind_ok, Option.filter_eq_some_iff] at h
  obtain ⟨-, run, ⟨hfind, -⟩, -, h⟩ := h
  have hid := Table.key_of_find? hfind
  -- A run that is completed already is only reported.
  split_ifs at h with hstate
  · exact .inl (Txn.pure_ok.mp h).2.symm
  simp only [Txn.orRaise_bind_ok] at h
  obtain ⟨⟨jsonRows, links⟩, -, h⟩ := h
  obtain ⟨done, mid, hloop, h⟩ := Txn.bind_ok.mp h
  simp only [finishRun, Txn.raiseIf_bind_ok, Txn.bind_assoc, Txn.get_bind_ok, Txn.orRaise_bind_ok,
    Txn.set_bind_ok] at h
  obtain ⟨-, items, hitems, h⟩ := h
  obtain ⟨_, s₂, haudit, h⟩ := Txn.bind_ok.mp h
  obtain ⟨-, rfl⟩ := Txn.pure_ok.mp h
  have hprepared : run.state = .prepared := by
    rcases hs : run.state with _ | _
    · rfl
    · exact absurd hs hstate
  -- The loop goes through the rows one after the other, each as `completeRow_ok` says.
  have hrows : RowsDone run q.actor ids
      ((s.rowsOf run.importId).mergeSort fun x y => env.collate x.id y.id) s mid := by
    refine (Txn.Outcome.foldlM (E := fun _ => True)
      (I := fun pre _ s₁ => RowsDone run q.actor ids pre s s₁) (.nil s) ?_).1 _ _ hloop
    intro pre x post acc s₁ _ hpre
    exact ⟨fun acc' s₂ hrow => .snoc hpre (completeRow_ok hrow), fun _ _ => trivial⟩
  rw [← hid] at hfind
  exact .inr ⟨run, _, mid, _, hid, ⟨hfind, hprepared, List.mergeSort_perm _ _, hrows, hitems,
    ⟨_, rfl⟩, rfl⟩, noted_of_audit haudit⟩

/-- An item took its next version, and an event says so. -/
def Advanced (item next : ReviewItem) (s s' : StatementDb) : Prop :=
  ∃ (version : Bigint) (e : ReviewEvent) (events : Table ReviewEvent.id),
    (version : ℤ) = item.version + 1 ∧ e.item = item.key ∧
    e.fromVersion = item.version ∧ e.toVersion = version ∧
    s.reviewEvents.insert? e = some events ∧
    s' = { s with
      reviewItems := s.reviewItems.replace { next with version := version }, reviewEvents := events }

/-- Advancing an item that returns records the decision and the next version. -/
theorem advanceItem_ok {item next : ReviewItem} {event : Uuid} {decision : Json} {u : Unit}
    (h : advanceItem p item next event decision s = .ok (u, s')) : Advanced item next s s' := by
  simp only [advanceItem, Txn.orRaise_bind_ok, Txn.get_bind_ok, Txn.set_ok] at h
  obtain ⟨version, hversion, events, hevents, rfl⟩ := h
  exact ⟨version, _, events, Bigint.ofInt?_eq_some.mp hversion, rfl, rfl, rfl, hevents, rfl⟩

/-- The match that a review writes for the row of an item. -/
def manualMatch (p : StatementMeta) (run : StatementRun) (item : ReviewItem) (target : Uuid)
    (ids : ReviewIds) : StatementMatch :=
  ⟨ids.statementMatch, p.tenant, run.mappingId, run.id, item.itemId, target, .manual, p.actor⟩

/-- The item of a posting, as the link of a row leaves it. -/
def ReviewItem.link (i : ReviewItem) (actor : String) (now : Instant) : ReviewItem :=
  { i with status := .matched, reason := "linked_statement", updatedBy := actor, updatedAt := now }

/-- A review linked a row with a posting of the snapshot that has the same money; the item of the
posting, if it has one, went along. -/
structure ReviewLinked (s s' : StatementDb) (p : StatementMeta) (run : StatementRun)
    (item : ReviewItem) (target : Uuid) (ids : ReviewIds) (t : Table StatementMatch.id) : Prop where
  kind : item.kind = .statement
  existing : s.existingPosting item = none
  snapshot : ∃ i, s.snapshotItems.find? (run.id, target) = some i ∧
    ∀ r, (s.rowsOf run.importId).find? (·.id = item.itemId) = some r →
      r.amount = i.amount ∧ r.direction = i.direction ∧ r.currency = i.currency
  new : ¬∃ x ∈ s.statementMatches.rows, (manualMatch p run item target ids).Clashes x
  recorded : s.statementMatches.insert? (manualMatch p run item target ids) = some t
  ledger : (s.reviewItems.find? (run.id, .ledger, target.text) = none ∧
      s' = { s with statementMatches := t }) ∨
    ∃ i, s.reviewItems.find? (run.id, .ledger, target.text) = some i ∧
      Advanced i (i.link p.actor ids.now) { s with statementMatches := t } s'

/-- A manual match clashes with no other, and the item of its posting follows it when there is one.
-/
theorem linkPosting_ok {run : StatementRun} {item : ReviewItem} {target : Uuid} {ids : ReviewIds}
    {u : Unit} (h : linkPosting p run item target ids s = .ok (u, s')) :
    (¬∃ x ∈ s.statementMatches.rows, (manualMatch p run item target ids).Clashes x) ∧
      ∃ t, s.statementMatches.insert? (manualMatch p run item target ids) = some t ∧
      ((s.reviewItems.find? (run.id, .ledger, target.text) = none ∧
          s' = { s with statementMatches := t }) ∨
        ∃ i, s.reviewItems.find? (run.id, .ledger, target.text) = some i ∧
          Advanced i (i.link p.actor ids.now) { s with statementMatches := t } s') := by
  obtain ⟨hnew, t, ht, h⟩ := insertMatch_bind_ok.mp h
  refine ⟨hnew, t, ht, ?_⟩
  simp only [Txn.get_bind_ok] at h
  rcases hledger : s.reviewItems.find? (run.id, .ledger, target.text) with _ | i
  · simp only [hledger, Txn.pure_ok] at h
    exact .inl ⟨rfl, h.2.symm⟩
  · simp only [hledger] at h
    exact .inr ⟨i, rfl, advanceItem_ok h⟩

/-- What a review did before it wrote its own item. -/
inductive ReviewStep (s : StatementDb) (p : StatementMeta) (run : StatementRun) (item : ReviewItem)
    (d : ReviewDecision) (ids : ReviewIds) : StatementDb → Prop
  /-- The item is not matched and stays so. -/
  | unmatched (status : d.status ≠ some .matched) (existing : s.existingPosting item = none) :
      ReviewStep s p run item d ids s
  /-- The item is matched and stays so. -/
  | again (status : d.status = some .matched) (kind : item.kind = .statement)
      (existing : s.existingPosting item ≠ none) : ReviewStep s p run item d ids s
  | linked {s' : StatementDb} {target : Uuid} {t : Table StatementMatch.id}
      (status : d.status = some .matched) (h : ReviewLinked s s' p run item target ids t) :
      ReviewStep s p run item d ids s'

/-- A cast of a posting changes nothing. -/
theorem castPosting_ok {o : Option String} {linked : Option Uuid}
    (h : castPosting o s = .ok (linked, s')) : s' = s := by
  cases o with
  | none => exact (Txn.pure_ok.mp h).2.symm
  | some t =>
    simp only [castPosting, Txn.orRaise_bind_ok, Txn.pure_ok] at h
    obtain ⟨_, -, -, rfl⟩ := h
    rfl

/-- A row that is matched is only reviewed as matched. -/
theorem keepMatch_ok {d : ReviewDecision} {existing : Option Uuid} {u : Unit}
    (h : keepMatch d existing s = .ok (u, s')) :
    s' = s ∧ (existing ≠ none → d.status ≠ none → d.status = some .matched) := by
  cases existing with
  | none =>
    obtain ⟨-, rfl⟩ := Txn.pure_ok.mp h
    exact ⟨rfl, fun hne => absurd rfl hne⟩
  | some posting =>
    obtain ⟨linked, s₁, hcast, hraise⟩ := Txn.bind_ok.mp h
    obtain rfl := castPosting_ok hcast
    obtain ⟨hpass, rfl⟩ := Txn.raiseIf_ok.mp hraise
    rw [not_or] at hpass
    refine ⟨rfl, fun _ hsome => ?_⟩
    obtain ⟨st, hst⟩ := Option.ne_none_iff_exists'.mp hsome
    by_contra hne
    exact hpass.1 ⟨st, hst, fun heq => hne (hst.trans (congrArg some heq))⟩

/-- A link of a review that returns is one of the steps of a review. -/
theorem reviewLink_ok {run : StatementRun} {item : ReviewItem} {d : ReviewDecision}
    {ids : ReviewIds} {u : Unit}
    (hkeep : s.existingPosting item ≠ none → d.status ≠ none → d.status = some .matched)
    (hsome : d.status ≠ none)
    (h : reviewLink p run item d (s.existingPosting item) ids s = .ok (u, s')) :
    ReviewStep s p run item d ids s' := by
  unfold reviewLink at h
  -- The posting is linked only when the decision is `matched`.
  split_ifs at h with hstatus
  · simp only [Txn.raiseIf_bind_ok, not_or, not_not, ne_eq] at h
    obtain ⟨⟨hkind, -⟩, h⟩ := h
    obtain ⟨linked, s₁, hcast, h⟩ := Txn.bind_ok.mp h
    obtain rfl := castPosting_ok hcast
    simp only [Txn.orRaise_bind_ok, Txn.get_bind_ok, Txn.raiseIf_bind_ok, not_exists, not_and,
      not_or, not_not] at h
    obtain ⟨target, -, i, hi, hmoney, h⟩ := h
    -- An item matched before keeps its match, and nothing is written.
    rcases hexisting : s₁.existingPosting item with _ | posting
    · rw [hexisting] at h
      obtain ⟨hnew, t, ht, hledger⟩ := linkPosting_ok h
      exact .linked hstatus ⟨hkind, hexisting, ⟨i, hi, hmoney⟩, hnew, ht, hledger⟩
    · rw [hexisting] at h
      obtain ⟨-, rfl⟩ := Txn.pure_ok.mp h
      exact .again hstatus hkind (by rw [hexisting]; exact Option.some_ne_none _)
  · obtain ⟨-, rfl⟩ := Txn.raiseIf_ok.mp h
    refine .unmatched hstatus ?_
    by_contra hne
    exact hstatus (hkeep hne hsome)

/-- The item as a decision leaves it. -/
def ReviewItem.review (i : ReviewItem) (d : ReviewDecision) (status : ReviewStatus) (actor : String)
    (now : Instant) : ReviewItem :=
  { i with
    status := status, assignee := d.assignee, reason := d.reason, comment := d.comment
    evidence := d.evidence, updatedBy := actor, updatedAt := now }

/-- A review of an item of a completed run, at the version that it expected. -/
structure Reviewed (s s' : StatementDb) (p : StatementMeta) (run : StatementRun) (item : ReviewItem)
    (d : ReviewDecision) (ids : ReviewIds) (mid : StatementDb) : Prop where
  run_find : s.runs.find? run.id = some run
  run_state : run.state = .completed
  item_find : s.reviewItems.find? item.key = some item
  item_run : item.runId = run.id
  kind : d.kind = some item.kind
  itemId : d.itemId = some item.itemId
  version : castBigint d.expectedVersion = some item.version
  step : ReviewStep s p run item d ids mid
  written : ∃ status, d.status = some status ∧
    Advanced item (item.review d status p.actor ids.now) mid s'

/-- A review changes nothing, or reviews its item and is noted. -/
theorem controlledStatementReviewV1_ok {target : Uuid} {decision : Json} {ids : ReviewIds}
    {r : Json} (h : controlledStatementReviewV1 env sess p target decision ids s = .ok (r, s')) :
    s' = s ∨ ∃ run item d mid s₁, run.id = target ∧ reviewDecision? decision = some d ∧
      Reviewed s s₁ p run item d ids mid ∧ s₁.Noted s' := by
  obtain h | h := statementCommand_ok h
  · exact .inl h
  simp only [Txn.orRaise_bind_ok, Txn.get_bind_ok, Txn.raiseIf_bind_ok, Option.filter_eq_some_iff,
    decide_eq_true_eq, not_or, not_not, ne_eq] at h
  obtain ⟨d, hd, version, hversion, run, ⟨hrun, -, hstate⟩, item, ⟨hitem, -⟩, ⟨hcurrent, -⟩, -, h⟩ := h
  obtain ⟨_, s₁, hkeep, h⟩ := Txn.bind_ok.mp h
  obtain ⟨rfl, hkeep⟩ := keepMatch_ok hkeep
  obtain ⟨_, mid, hlink, h⟩ := Txn.bind_ok.mp h
  simp only [Txn.orRaise_bind_ok] at h
  obtain ⟨status, hstatus, h⟩ := h
  obtain ⟨_, s₂, hadvance, hstore⟩ := Txn.bind_ok.mp h
  -- The link depends on the earlier match, which the first check compared with the decision.
  have hstep := reviewLink_ok hkeep (by rw [hstatus]; exact Option.some_ne_none _) hlink
  have hid := Table.key_of_find? hrun
  unfold StatementDb.reviewed? at hitem
  rcases hk : d.kind with _ | kind
  · simp [hk] at hitem
  rcases hi : d.itemId with _ | itemId
  · simp [hk, hi] at hitem
  -- The item has the kind and the id that the decision names.
  simp only [hk, hi] at hitem
  have hkey := Table.key_of_find? hitem
  rw [← hkey] at hitem
  simp only [ReviewItem.key, Prod.mk.injEq] at hkey
  obtain ⟨hrunId, hkind, hitemId⟩ := hkey
  rw [← hid] at hrun hrunId
  refine .inr ⟨run, item, d, mid, s₂, hid, hd, ⟨hrun, hstate, hitem, hrunId, ?_, ?_, ?_, hstep,
    status, hstatus, advanceItem_ok hadvance⟩, statementStoreCommandV1_ok hstore⟩
  · rw [hk, hkind]
  · rw [hi, hitemId]
  · rw [hversion, hcurrent]

/-- What a returning call did. -/
inductive StatementEffect (env : StatementEnv) (s : StatementDb) : StatementCall → StatementDb → Prop
  /-- A stored command was repeated, or nothing new was found. -/
  | noted {c : StatementCall} {s' : StatementDb} (h : s.Noted s') : StatementEffect env s c s'
  | ledger {c : Call} {l : Db} (h : Effect env.digest c s.ledger l) :
      StatementEffect env s (.ledger c) { s with ledger := l }
  | mapped {c : StatementCall} {m : StatementMapping} {s₁ s' : StatementDb} (h : Mapped s s₁ m)
      (noted : s₁.Noted s') : StatementEffect env s c s'
  | imported {c : StatementCall} {i : StatementImport} {st : Statement} {s₁ s' : StatementDb}
      (h : Imported s s₁ i st) (noted : s₁.Noted s') : StatementEffect env s c s'
  | prepared {c : StatementCall} {run : StatementRun} {s₁ s' : StatementDb}
      (h : Prepared env s s₁ run) (noted : s₁.Noted s') : StatementEffect env s c s'
  | completed {c : StatementCall} {run : StatementRun} {actor : String} {ids : CompleteIds}
      {rows : List ImportedRow} {mid s₁ s' : StatementDb}
      (h : RunCompleted s s₁ run actor ids rows mid) (noted : s₁.Noted s') : StatementEffect env s c s'
  | reviewed {sess : Session} {p : StatementMeta} {decision : Json} {ids : ReviewIds}
      {run : StatementRun} {item : ReviewItem} {d : ReviewDecision} {mid s₁ s' : StatementDb}
      (decided : reviewDecision? decision = some d) (h : Reviewed s s₁ p run item d ids mid)
      (noted : s₁.Noted s') : StatementEffect env s (.review sess p run.id decision ids) s'

/-- A returning command has one of the effects. -/
theorem execStatement_effect {c : StatementCall} {u : Unit}
    (h : execStatement env c s = .ok (u, s')) : StatementEffect env s c s' := by
  -- Each procedure has its lemma, and the session calls of the ledger keep their own effect.
  cases c with
  | ledger c =>
    obtain ⟨l, hl, rfl⟩ := onLedger_ok.mp h
    exact .ledger (exec_effect hl)
  | mapping sess p account sourceRef id ids =>
    obtain ⟨r, h⟩ := Txn.discard_ok.mp h
    obtain h | ⟨m, s₁, h, hnoted⟩ := controlledStatementMappingV1_ok h
    · exact .noted h
    · exact .mapped h hnoted
  | importFile sess p mapping source id ids =>
    obtain ⟨r, h⟩ := Txn.discard_ok.mp h
    obtain h | ⟨i, st, s₁, h, hnoted⟩ := controlledStatementImportV1_ok h
    · exact .noted h
    · exact .imported h hnoted
  | prepare sess p sourceImport cutoff id ids =>
    obtain ⟨r, h⟩ := Txn.discard_ok.mp h
    obtain h | ⟨run, s₁, h, hnoted⟩ := controlledStatementPrepareV1_ok h
    · exact .noted h
    · exact .prepared h hnoted
  | complete sess q ids =>
    obtain ⟨r, h⟩ := Txn.discard_ok.mp h
    obtain rfl | ⟨run, rows, mid, s₁, -, h, hnoted⟩ := controlledStatementCompleteV1_ok h
    · exact .noted rfl
    · exact .completed h hnoted
  | review sess p target decision ids =>
    obtain ⟨r, h⟩ := Txn.discard_ok.mp h
    obtain rfl | ⟨run, item, d, mid, s₁, rfl, hd, h, hnoted⟩ := controlledStatementReviewV1_ok h
    · exact .noted rfl
    · exact .reviewed hd h hnoted

end Effects

/-! ## Calls that return

The same the other way round, for the calls whose result is needed. -/

section Running

variable {env : StatementEnv} {sess : Session} {p : StatementMeta} {s : StatementDb}

/-- A new command runs. -/
theorem statementCommand_of_new {op : String} {fp : Bytes} {body : StatementProc Json}
    (hscope : sess.Allows p.tenant ∧ p.actor = sess.actorId)
    (hshape : op ∈ ["mapping", "import", "prepare", "review"] ∧ IsKey p.idempotencyKey ∧
      fp.length = 32)
    (hnew : s.commands.find? (p.tenant, p.actor, op, p.idempotencyKey) = none) :
    statementCommand sess p op fp body s = body s := by
  unfold statementCommand statementExistingCommandV1
  rw [Txn.bind_assoc, Txn.raiseIf_bind_of_neg (by simp [hscope]), Txn.bind_assoc,
    Txn.raiseIf_bind_of_neg (by simp only [not_or, not_not]; exact hshape), Txn.bind_assoc,
    Txn.get_bind, hnew]
  rfl

/-- The import of the first file goes on with what the file says. -/
theorem commit_importFile_of_new {mapping : Uuid} {source : Bytes} {id : Uuid} {ids : CommandIds}
    {binding : StatementMapping} {st : Statement}
    (hsize : 1 ≤ source.length ∧ source.length ≤ maxSourceBytes)
    (hscope : sess.Allows p.tenant ∧ p.actor = sess.actorId) (hkey : IsKey p.idempotencyKey)
    (hnew : s.commands.find? (p.tenant, p.actor, "import", p.idempotencyKey) = none)
    (hbinding : s.mappings.find? mapping = some binding) (htenant : binding.tenantId = p.tenant)
    (hfirst : s.imports.rows = [])
    (hparse : importText binding.sourceAccountRef source = .ok st) :
    commit (execStatement env (.importFile sess p mapping source id ids)) s =
      commit (Txn.discard (do
        storeStatement env p binding source id st
        statementStoreCommandV1 sess p "import" (env.fingerprint [.str mapping.text,
          .str (hexText (env.sha256 source))]) id ids)) s := by
  have hfilter : (some binding).filter (fun m => decide (m.tenantId = p.tenant)) =
      some binding := by
    rw [Option.filter_eq_some_iff]
    exact ⟨rfl, decide_eq_true htenant⟩
  -- The file is not there yet, so that it is parsed and stored.
  have himport : importSource env p binding source id s =
      storeStatement env p binding source id st s := by
    unfold importSource
    rw [Txn.get_bind, Txn.raiseIf_bind_of_neg (by rw [hfirst]; simp), hparse]
    rfl
  have hfp : (env.fingerprint [.str mapping.text, .str (hexText (env.sha256 source))]).length =
      32 := env.digest.length_sha256 _
  -- None of the checks of the procedure stops this call.
  have hrun : controlledStatementImportV1 env sess p mapping source id ids s =
      (do
        storeStatement env p binding source id st
        statementStoreCommandV1 sess p "import" (env.fingerprint [.str mapping.text,
          .str (hexText (env.sha256 source))]) id ids) s := by
    unfold controlledStatementImportV1
    rw [Txn.raiseIf_bind_of_neg (by omega), statementCommand_of_new hscope ⟨by decide, hkey, hfp⟩
      hnew, Txn.get_bind, hbinding, hfilter]
    simp only [hfirst, List.find?_nil]
    exact Txn.bind_congr himport
  have hdiscard : execStatement env (.importFile sess p mapping source id ids) s = _ :=
    Txn.bind_congr hrun
  unfold commit
  rw [hdiscard]
  rfl

end Running

end LedgerSync
