import LedgerSync.Book

/-!
# Journals and their validation

At commit, a deferred trigger compares every new journal with the command that wrote it
(`validateLedgerSemanticShape`). The validator and the posting code describe the shape of a journal
independently. This module proves that they agree for good: whatever calls follow, every journal
that was ever written passes the validator (`journals_accepted`), also after its transfer or its
funding event has been compensated. The check therefore never rolls a command back, and the commands
are modelled without it.

Each journal moves one amount within one tenant and currency, so the ledger amounts of a tenant and
currency keep the sum of their opening balances.
-/

namespace LedgerSync

open Lib

/-! ## The validator -/

/-- The error of the validator. -/
def semanticViolation (what : String) : PgError :=
  ⟨"23514", "ledger_semantic_validation", "ledger semantic constraint violated: " ++ what⟩

/-- The number of postings of a journal that pass a test. -/
def Db.countPostings (s : Db) (j : Journal) (test : Posting → Bool) : ℕ :=
  (s.postings.rows.filter fun p =>
    (p.journalTransactionId = j.id ∧ p.tenantId = j.tenantId) ∧ test p = true).length

/-- The posting is one side of a command. -/
def Posting.isSide (direction : Direction) (account : Uuid) (amount : Bigint) (currency : String)
    (p : Posting) : Bool :=
  p.direction = direction ∧ p.accountId = account ∧ p.amount = amount ∧ p.currency = currency

/-- A journal has two postings, one for each side of its command. -/
def checkSides (j : Journal) (debit credit : Uuid) (amount : Bigint) (currency what : String) :
    Proc Unit := do
  let s ← Txn.get
  Txn.raiseIf (s.countPostings j (fun _ => true) ≠ 2 ∨
      s.countPostings j (Posting.isSide .debit debit amount currency) ≠ 1 ∨
      s.countPostings j (Posting.isSide .credit credit amount currency) ≠ 1)
    (semanticViolation what)

/-- The original of a compensating transfer is posted, and the transfer reverses it. -/
def checkTransferCompensation (j : Journal) (x : Transfer) : Proc Unit :=
  match x.compensationOfTransferId with
  | none => pure ()
  | some original => do
    let s ← Txn.get
    let o ← Txn.orRaise ((s.transfers.find? original).filter (·.tenantId = j.tenantId))
      (semanticViolation "transfer compensation")
    Txn.raiseIf (o.status ≠ .posted ∨ x.debitAccountId ≠ o.creditAccountId ∨
        x.creditAccountId ≠ o.debitAccountId ∨ x.amount ≠ o.amount ∨ x.currency ≠ o.currency)
      (semanticViolation "transfer compensation")

/-- The validation of the journal of a transfer. -/
def validateTransferJournal (j : Journal) : Proc Unit := do
  let s ← Txn.get
  let x ← Txn.orRaise ((s.transfers.find? j.sourceId).filter (·.tenantId = j.tenantId))
    (semanticViolation "transfer linkage")
  Txn.raiseIf (x.status ≠ .posted ∨ x.journalTransactionId ≠ some j.id ∨
      j.transferId ≠ some j.sourceId ∨ j.fundingEventId ≠ none)
    (semanticViolation "transfer linkage")
  checkTransferCompensation j x
  checkSides j x.debitAccountId x.creditAccountId x.amount x.currency "transfer postings"

/-- The postings of a funding event, or of a compensation, whose original is marked with it. -/
def checkFundingSides (j : Journal) (e : FundingEvent) : Proc Unit :=
  match e.compensationOfEventId with
  | none => checkSides j e.systemAccountId e.destinationAccountId e.amount e.currency
      "funding postings"
  | some original => do
    let s ← Txn.get
    let o ← Txn.orRaise ((s.fundingEvents.find? original).filter (·.tenantId = j.tenantId))
      (semanticViolation "funding compensation")
    Txn.raiseIf (o.status ≠ .compensated ∨ o.compensationEventId ≠ some j.sourceId ∨
        e.destinationAccountId ≠ o.destinationAccountId ∨ e.systemAccountId ≠ o.systemAccountId ∨
        e.amount ≠ o.amount ∨ e.currency ≠ o.currency)
      (semanticViolation "funding compensation")
    checkSides j e.destinationAccountId e.systemAccountId e.amount e.currency "funding postings"

/-- The validation of the journal of a funding event. -/
def validateFundingJournal (j : Journal) : Proc Unit := do
  let s ← Txn.get
  let e ← Txn.orRaise ((s.fundingEvents.find? j.sourceId).filter (·.tenantId = j.tenantId))
    (semanticViolation "funding linkage")
  Txn.raiseIf ((e.status ≠ .posted ∧ e.status ≠ .compensated) ∨
      e.journalTransactionId ≠ some j.id ∨ j.fundingEventId ≠ some j.sourceId ∨
      j.transferId ≠ none)
    (semanticViolation "funding linkage")
  checkFundingSides j e

/-- `validate_ledger_semantic_shape`. -/
def validateLedgerSemanticShape (target : Uuid) : Proc Unit := do
  let s ← Txn.get
  let j ← Txn.orRaise (s.journals.find? target) (semanticViolation "journal missing")
  match j.sourceType with
  | .transfer => validateTransferJournal j
  | .fundingEvent => validateFundingJournal j

/-! ## The shape of a journal -/

/-- The postings of a journal, newest first. -/
def Db.postingsOf (s : Db) (journal : Uuid) : List Posting :=
  s.postings.rows.filter fun p => p.journalTransactionId = journal

/-- A journal has exactly the two postings of a movement. -/
def Db.PostedAs (s : Db) (j : Journal) (debit credit : Uuid) (amount : Bigint)
    (currency : String) : Prop :=
  ∃ i i' now, s.postingsOf j.id =
    [transferPosting j.tenantId i' j.id credit .credit amount currency now,
      transferPosting j.tenantId i j.id debit .debit amount currency now]

/-- The journal of a transfer. -/
structure TransferShape (s : Db) (j : Journal) (x : Transfer) : Prop where
  find : s.transfers.find? j.sourceId = some x
  tenant : x.tenantId = j.tenantId
  status : x.status = .posted
  linked : x.journalTransactionId = some j.id
  transferId : j.transferId = some j.sourceId
  fundingEventId : j.fundingEventId = none
  compensation : ∀ original, x.compensationOfTransferId = some original → ∃ o,
    s.transfers.find? original = some o ∧ o.tenantId = j.tenantId ∧ o.status = .posted ∧
      x.debitAccountId = o.creditAccountId ∧ x.creditAccountId = o.debitAccountId ∧
      x.amount = o.amount ∧ x.currency = o.currency
  sides : s.PostedAs j x.debitAccountId x.creditAccountId x.amount x.currency

/-- Two funding events with one destination, clearing account, amount and currency. -/
structure FundingEvent.SameTerms (e o : FundingEvent) : Prop where
  tenant : e.tenantId = o.tenantId
  destination : e.destinationAccountId = o.destinationAccountId
  system : e.systemAccountId = o.systemAccountId
  amount : e.amount = o.amount
  currency : e.currency = o.currency

/-- The journal of a funding event. -/
structure FundingShape (s : Db) (j : Journal) (e : FundingEvent) : Prop where
  find : s.fundingEvents.find? j.sourceId = some e
  tenant : e.tenantId = j.tenantId
  status : e.status = .posted ∨ e.status = .compensated
  linked : e.journalTransactionId = some j.id
  fundingEventId : j.fundingEventId = some j.sourceId
  transferId : j.transferId = none
  compensation : ∀ original, e.compensationOfEventId = some original → ∃ o,
    s.fundingEvents.find? original = some o ∧ o.status = .compensated ∧
      o.compensationEventId = some j.sourceId ∧ e.SameTerms o
  sides : s.PostedAs j e.debitAccountId e.creditAccountId e.amount e.currency

/-- The shape that the validator looks for. -/
def Journal.Shaped (s : Db) (j : Journal) : Prop :=
  match j.sourceType with
  | .transfer => ∃ x, TransferShape s j x
  | .fundingEvent => ∃ e, FundingShape s j e

/-- The postings of a journal that are counted are those of its tenant that pass the test. -/
theorem countPostings_eq (s : Db) (j : Journal) (test : Posting → Bool) :
    s.countPostings j test =
      ((s.postingsOf j.id).filter fun p => p.tenantId = j.tenantId ∧ test p = true).length := by
  unfold Db.countPostings Db.postingsOf
  rw [List.filter_filter]
  congr 2
  funext p
  simp only [Bool.decide_and, Bool.decide_eq_true]
  cases decide (p.journalTransactionId = j.id) <;> cases decide (p.tenantId = j.tenantId) <;>
    cases test p <;> rfl

/-- The two postings of a movement pass the count. -/
theorem checkSides_of_postedAs {s : Db} {j : Journal} {debit credit : Uuid} {amount : Bigint}
    {currency what : String} (h : s.PostedAs j debit credit amount currency) :
    checkSides j debit credit amount currency what s = .ok ((), s) := by
  obtain ⟨i, i', now, hrows⟩ := h
  simp only [checkSides, Txn.get_bind_ok, Txn.raiseIf_ok, countPostings_eq, hrows]
  simp [transferPosting, Posting.isSide]

/-- The validator accepts every journal of the right shape. -/
theorem validate_of_shaped {s : Db} {j : Journal} (hj : s.journals.find? j.id = some j)
    (h : j.Shaped s) : validateLedgerSemanticShape j.id s = .ok ((), s) := by
  simp only [validateLedgerSemanticShape, Txn.get_bind_ok, Txn.orRaise_bind_ok]
  refine ⟨j, hj, ?_⟩
  unfold Journal.Shaped at h
  -- The source of a journal is a transfer or a funding event.
  rcases htype : j.sourceType with _ | _
  · simp only [htype] at h ⊢
    obtain ⟨x, hx⟩ := h
    simp only [validateTransferJournal, Txn.get_bind_ok, Txn.orRaise_bind_ok, Txn.raiseIf_bind_ok,
      Option.filter_eq_some_iff, decide_eq_true_eq]
    refine ⟨x, ⟨hx.find, hx.tenant⟩, ?_, ?_⟩
    · simp [hx.status, hx.linked, hx.transferId, hx.fundingEventId]
    rw [Txn.bind_ok]
    refine ⟨(), s, ?_, checkSides_of_postedAs hx.sides⟩
    unfold checkTransferCompensation
    -- A compensation is compared with its original as well.
    rcases hof : x.compensationOfTransferId with _ | original
    · simp
    · obtain ⟨o, ho, htenant, hstatus, hd, hc, ham, hcur⟩ := hx.compensation original hof
      simp only [Txn.get_bind_ok, Txn.orRaise_bind_ok, Txn.raiseIf_ok, Option.filter_eq_some_iff,
        decide_eq_true_eq]
      exact ⟨o, ⟨ho, htenant⟩, by simp [hstatus, hd, hc, ham, hcur], trivial⟩
  · simp only [htype] at h ⊢
    obtain ⟨e, he⟩ := h
    simp only [validateFundingJournal, Txn.get_bind_ok, Txn.orRaise_bind_ok, Txn.raiseIf_bind_ok,
      Option.filter_eq_some_iff, decide_eq_true_eq]
    refine ⟨e, ⟨he.find, he.tenant⟩, ?_, ?_⟩
    · rcases he.status with hs | hs <;> simp [hs, he.linked, he.fundingEventId, he.transferId]
    have hsides := he.sides
    unfold FundingEvent.debitAccountId FundingEvent.creditAccountId at hsides
    -- The sides of a compensating event are those of the original exchanged.
    unfold checkFundingSides
    rcases hof : e.compensationOfEventId with _ | original
    · simp only [hof, if_true] at hsides
      exact checkSides_of_postedAs hsides
    · obtain ⟨o, ho, hstatus, hmark, hterms⟩ := he.compensation original hof
      simp only [hof, reduceCtorEq, if_false] at hsides
      simp only [Txn.get_bind_ok, Txn.orRaise_bind_ok, Txn.raiseIf_bind_ok,
        Option.filter_eq_some_iff, decide_eq_true_eq]
      refine ⟨o, ⟨ho, hterms.tenant.symm.trans he.tenant⟩, ?_, checkSides_of_postedAs hsides⟩
      simp [hstatus, hmark, hterms.destination, hterms.system, hterms.amount, hterms.currency]

/-! ## What later calls leave of a journal -/

section Kept

variable {d : Digest} {c : Call} {s s' : Db}

/-- A movement between two accounts is the journal, its postings and nothing else that a journal
is checked against. -/
structure JournalWritten (s s' : Db) (j : Journal) (debit credit : Uuid) (amount : Bigint)
    (currency : String) : Prop where
  insert : s.journals.insert? j = some s'.journals
  pair : ∃ i i' now, Posting.Pair s j.tenantId j.id i i' debit credit amount currency now s'.postings

/-- A call writes no journal and no posting, or one journal with its postings. -/
theorem Change.journal (h : Change d s s') :
    (s'.journals = s.journals ∧ s'.postings = s.postings) ∨
      ∃ j debit credit amount currency, JournalWritten s s' j debit credit amount currency := by
  -- A change writes either nothing or one balanced pair.
  cases h with
  | quiet frame => exact .inl ⟨by rw [frame], by rw [frame]⟩
  | status => exact .inl ⟨rfl, rfl⟩
  | claimed _ frame => exact .inl ⟨by rw [frame], by rw [frame]⟩
  | cleared h frame => exact .inl ⟨by rw [frame, h.frame], by rw [frame, h.frame]⟩
  | rejected h => exact .inl ⟨by rw [h.frame]; rfl, by rw [h.frame]; rfl⟩
  | posted h => exact .inr ⟨_, _, _, _, _, h.journals, _, _, _, h.postings⟩
  | corrected h => exact .inr ⟨_, _, _, _, _, h.journals, _, _, _, h.postings⟩
  | funded h => exact .inr ⟨_, _, _, _, _, h.journals, _, _, _, h.postings⟩
  | reserved h => exact .inl ⟨by rw [h.frame], by rw [h.frame]⟩
  | returned _ h => exact .inl ⟨by rw [h.frame], by rw [h.frame]⟩
  -- A capture posts in its middle state; the last step keeps both tables.
  | captured h =>
    have hj : s'.journals = h.mid.journals := (congrArg Db.journals h.frame :)
    have hp : s'.postings = h.mid.postings := (congrArg Db.postings h.frame :)
    have hjournals := h.posted.journals
    have hpair := h.posted.postings
    rw [← hj] at hjournals
    rw [← hp] at hpair
    exact .inr ⟨_, _, _, _, _, hjournals, _, _, _, hpair.rows, hpair.debit_currency,
      hpair.credit_currency⟩
  | imported h => exact .inl ⟨by rw [h.frame], by rw [h.frame]⟩

/-- Transfers that were stored stay as they are. -/
theorem Change.transfer_kept (h : Change d s s') {i : Uuid} {x : Transfer}
    (hx : s.transfers.find? i = some x) : s'.transfers.find? i = some x := by
  cases h with
  | quiet frame => rw [frame]; exact hx
  | status => exact hx
  | claimed _ frame => rw [frame]; exact hx
  | cleared h frame => rw [frame, h.frame]; exact hx
  | rejected h => exact Table.find?_insert?_of_some h.transfers hx
  | posted h => exact Table.find?_insert?_of_some h.transfers hx
  | corrected h => exact Table.find?_insert?_of_some h.transfers hx
  | funded h => rw [h.frame]; exact hx
  | reserved h => rw [h.frame]; exact hx
  | returned _ h => rw [h.frame]; exact hx
  | captured h =>
    have heq : s'.transfers = h.mid.transfers := (congrArg Db.transfers h.frame :)
    rw [heq]
    exact Table.find?_insert?_of_some h.posted.transfers hx
  | imported h => rw [h.frame]; exact hx

/-- The postings of a journal that was there before are the same after another is written. -/
theorem JournalWritten.postingsOf {j : Journal} {debit credit : Uuid} {amount : Bigint}
    {currency : String} (h : JournalWritten s s' j debit credit amount currency) {i : Uuid}
    (hi : i ≠ j.id) : s'.postingsOf i = s.postingsOf i := by
  obtain ⟨_, _, _, hpair⟩ := h.pair
  obtain ⟨t₁, h₁, h₂⟩ := hpair.rows
  unfold Db.postingsOf
  rw [(Table.insert?_eq_some.mp h₂).2, (Table.insert?_eq_some.mp h₁).2]
  simp [transferPosting, hi.symm]

/-- A new journal has the two postings that were written with it. -/
theorem JournalWritten.postedAs {j : Journal} {debit credit : Uuid} {amount : Bigint}
    {currency : String} (h : JournalWritten s s' j debit credit amount currency)
    (hfresh : ∀ p ∈ s.postings, p.journalTransactionId ≠ j.id) :
    s'.PostedAs j debit credit amount currency := by
  obtain ⟨i, i', now, hpair⟩ := h.pair
  obtain ⟨t₁, h₁, h₂⟩ := hpair.rows
  refine ⟨i, i', now, ?_⟩
  have hnone : s.postings.rows.filter (fun p => p.journalTransactionId = j.id) = [] := by
    rw [List.filter_eq_nil_iff]
    intro p hp
    simpa using hfresh p hp
  unfold Db.postingsOf
  rw [(Table.insert?_eq_some.mp h₂).2, (Table.insert?_eq_some.mp h₁).2]
  simp [transferPosting, hnone]

/-- What later calls leave of a funding event: its terms always, and its outcome once it is
posted. -/
structure FundingEvent.Advances (e e' : FundingEvent) : Prop extends e'.SameTerms e where
  original : e'.compensationOfEventId = e.compensationOfEventId
  posted : e.status = .posted → (e'.status = .posted ∨ e'.status = .compensated) ∧
    e'.journalTransactionId = e.journalTransactionId
  compensated : e.status = .compensated → e' = e

/-- An event has its own terms. -/
theorem FundingEvent.SameTerms.refl (e : FundingEvent) : e.SameTerms e := ⟨rfl, rfl, rfl, rfl, rfl⟩

/-- An event that stays has advanced. -/
theorem FundingEvent.Advances.refl (e : FundingEvent) : e.Advances e where
  toSameTerms := .refl e
  original := rfl
  posted h := ⟨.inl h, rfl⟩
  compensated _ := rfl

/-- An event exchanged for one that it advances to. -/
theorem advances_replace {t : Table FundingEvent.id} {e e' : FundingEvent} (hid : e'.id = e.id)
    (he : t.find? e.id = some e) (hadv : e.Advances e') {i : Uuid} {x : FundingEvent}
    (hx : t.find? i = some x) : ∃ x', (t.replace e').find? i = some x' ∧ x.Advances x' := by
  rw [Table.find?_replace]
  by_cases hi : i = e'.id
  · subst hi
    rw [hid] at hx
    obtain rfl := Option.some.inj (hx.symm.trans he)
    exact ⟨e', by rw [if_pos rfl, hid, he]; rfl, hadv⟩
  · exact ⟨x, by rw [if_neg hi, hx], .refl x⟩

/-- Advances compose. -/
theorem FundingEvent.Advances.trans {e e' e'' : FundingEvent} (h : e.Advances e')
    (h' : e'.Advances e'') : e.Advances e'' where
  tenant := h'.tenant.trans h.tenant
  destination := h'.destination.trans h.destination
  system := h'.system.trans h.system
  amount := h'.amount.trans h.amount
  currency := h'.currency.trans h.currency
  original := h'.original.trans h.original
  posted hs := by
    obtain ⟨hs' | hs', hj⟩ := h.posted hs
    · exact ⟨(h'.posted hs').1, (h'.posted hs').2.trans hj⟩
    · rw [h'.compensated hs']
      exact ⟨.inr hs', hj⟩
  compensated hs := by
    have heq := h.compensated hs
    subst heq
    exact h'.compensated hs

/-- The changes of the funding events: a new event, whose original is there when it compensates
one, and events that advance. -/
inductive FundingChange : Table FundingEvent.id → Table FundingEvent.id → Prop
  | same (t : Table FundingEvent.id) : FundingChange t t
  | insert {t t' : Table FundingEvent.id} {e : FundingEvent} (h : t.insert? e = some t')
      (original : ∀ i, e.compensationOfEventId = some i → ∃ o, t.find? i = some o ∧
        o.compensationOfEventId = none ∧ e.SameTerms o) : FundingChange t t'
  | advance {t : Table FundingEvent.id} {e e' : FundingEvent} (id : e'.id = e.id)
      (find : t.find? e.id = some e) (adv : e.Advances e') : FundingChange t (t.replace e')
  | trans {t t₁ t' : Table FundingEvent.id} (h : FundingChange t t₁) (h' : FundingChange t₁ t') :
      FundingChange t t'

/-- Every compensating event has the terms of its original, which compensates none itself. -/
def Compensating (t : Table FundingEvent.id) : Prop :=
  ∀ i e, t.find? i = some e → ∀ j, e.compensationOfEventId = some j → ∃ o, t.find? j = some o ∧
    o.compensationOfEventId = none ∧ e.SameTerms o

/-- A change of the events keeps each of them, advanced perhaps. -/
theorem FundingChange.kept {t t' : Table FundingEvent.id} (h : FundingChange t t') {i : Uuid}
    {e : FundingEvent} (he : t.find? i = some e) : ∃ e', t'.find? i = some e' ∧ e.Advances e' := by
  induction h generalizing e with
  | same => exact ⟨e, he, .refl e⟩
  | insert h => exact ⟨e, Table.find?_insert?_of_some h he, .refl e⟩
  | advance id find adv => exact advances_replace id find adv he
  | trans _ _ ih ih' =>
    obtain ⟨e₁, he₁, hadv⟩ := ih he
    obtain ⟨e', he', hadv'⟩ := ih' he₁
    exact ⟨e', he', hadv.trans hadv'⟩

/-- The terms of an event and of its original stay the same. -/
theorem FundingChange.original {t t' : Table FundingEvent.id} (h : FundingChange t t')
    {e e' : FundingEvent} (hterms : e'.SameTerms e) {j : Uuid}
    (ho : ∃ o, t.find? j = some o ∧ o.compensationOfEventId = none ∧ e.SameTerms o) :
    ∃ o, t'.find? j = some o ∧ o.compensationOfEventId = none ∧ e'.SameTerms o := by
  obtain ⟨o, hfind, hnone, hsame⟩ := ho
  obtain ⟨o', hfind', hadv⟩ := h.kept hfind
  exact ⟨o', hfind', hadv.original.trans hnone,
    (hterms.tenant.trans hsame.tenant).trans hadv.tenant.symm,
    (hterms.destination.trans hsame.destination).trans hadv.destination.symm,
    (hterms.system.trans hsame.system).trans hadv.system.symm,
    (hterms.amount.trans hsame.amount).trans hadv.amount.symm,
    (hterms.currency.trans hsame.currency).trans hadv.currency.symm⟩

/-- A change of the events keeps every compensation with its original. -/
theorem FundingChange.compensating {t t' : Table FundingEvent.id} (h : FundingChange t t')
    (ht : Compensating t) : Compensating t' := by
  induction h with
  | same => exact ht
  | @insert t t' e h original =>
    intro i x hx j hj
    have hchange : FundingChange t t' := .insert h original
    -- The original is looked up in the old table, where it stays.
    rw [Table.find?_insert? h] at hx
    split_ifs at hx with hi
    · cases hx
      exact hchange.original (.refl _) (original j hj)
    · exact hchange.original (.refl _) (ht i x hx j hj)
  | @advance t e e' id find adv =>
    intro i x hx j hj
    have hchange : FundingChange t (t.replace e') := .advance id find adv
    -- The changed event keeps its terms, hence its original.
    rw [Table.find?_replace] at hx
    split_ifs at hx with hi
    · rw [hi, id, find, Option.map_some, Option.some.injEq] at hx
      subst hx
      exact hchange.original adv.toSameTerms (ht _ e find j (adv.original ▸ hj))
    · exact hchange.original (.refl _) (ht i x hx j hj)
  | trans _ _ ih ih' => exact ih' (ih ht)

/-- An event that is not posted advances to any event of its terms. -/
theorem FundingEvent.advances_of_unposted {e e' : FundingEvent} (hterms : e'.SameTerms e)
    (horiginal : e'.compensationOfEventId = e.compensationOfEventId)
    (hposted : e.status ≠ .posted) (hcompensated : e.status ≠ .compensated) : e.Advances e' where
  toSameTerms := hterms
  original := horiginal
  posted h := absurd h hposted
  compensated h := absurd h hcompensated

/-- A posted event advances when it is compensated. -/
theorem FundingEvent.advances_compensate {e : FundingEvent} (hposted : e.status = .posted)
    (compensation : Uuid) (now : Instant) : e.Advances (e.compensate compensation now) where
  toSameTerms := ⟨rfl, rfl, rfl, rfl, rfl⟩
  original := rfl
  posted _ := ⟨.inr rfl, rfl⟩
  compensated h := by
    rw [hposted] at h
    cases h

/-- A requested event advances when it is decided. -/
theorem FundingEvent.advances_decide {e : FundingEvent} (hrequested : e.status = .requested)
    (p : FundingDecision) : e.Advances (e.decide p) := by
  apply FundingEvent.advances_of_unposted
  · unfold FundingEvent.decide
    split_ifs <;> exact ⟨rfl, rfl, rfl, rfl, rfl⟩
  · unfold FundingEvent.decide
    split_ifs <;> rfl
  · simp [hrequested]
  · simp [hrequested]

/-- The funding events after a funding event was posted. -/
theorem PostedFunding.fundingChange {p : FundingPost} {ids : FundingPostIds}
    (h : PostedFunding p ids s s') : FundingChange s.fundingEvents s'.fundingEvents := by
  have hkey := Table.key_of_find? h.event_find
  have hposted : FundingChange s.fundingEvents (s.fundingEvents.replace
      (h.event.post ids.journal p.idempotencyKey p.now)) :=
    .advance (e := h.event) rfl (hkey ▸ h.event_find)
      (FundingEvent.advances_of_unposted ⟨rfl, rfl, rfl, rfl, rfl⟩ rfl (by simp [h.event_status])
        (by simp [h.event_status]))
  rcases hof : h.event.compensationOfEventId with _ | original
  · rw [(h.closed.counted hof).2]
    exact hposted
  · obtain ⟨o, ho, -, hstatus, -, heq⟩ := h.closed.marked original hof
    rw [heq]
    have hkey' : o.id = original := Table.key_of_find? ho
    subst hkey'
    exact hposted.trans (.advance (e := o) rfl ho (FundingEvent.advances_compensate hstatus _ _))

/-- The funding events after a call. -/
theorem Effect.fundingChange (h : Effect d c s s') :
    FundingChange s.fundingEvents s'.fundingEvents := by
  by_cases hc : c.Funds
  case neg => exact h.untouched.fundingEvents hc ▸ .same _
  cases h with
  | none => exact .same _
  | @requestedFunding _ _ _ _ s₁ _ _ _ e cleared row events frame =>
    -- Creating the clearing account leaves the events alone.
    have heq : s₁.fundingEvents = s.fundingEvents := by
      rcases cleared with rfl | hc
      · rfl
      · rw [hc.frame]
    rw [heq] at events
    -- A requested event is not a compensation.
    refine .insert events fun i hi => ?_
    unfold requestedFunding? at row
    split_ifs at row
    cases row
    cases hi
  | requestedCompensation find tenant original posted unclashing events frame =>
    refine .insert events fun i hi => ?_
    cases hi
    exact ⟨_, find, original, tenant.symm, rfl, rfl, rfl, rfl⟩
  | decidedFunding find requested events frame =>
    rw [events]
    refine .advance ?_ ((Table.key_of_find? find).symm ▸ find)
      (FundingEvent.advances_decide requested _)
    unfold FundingEvent.decide
    split_ifs <;> rfl
  | postedFunding h => exact h.fundingChange
  | _ => exact False.elim hc

/-- A correction that is there was there before, in another state perhaps, or its original is a
transfer of its tenant. -/
theorem Effect.correction (h : Effect d c s s') {k : Correction} (hk : k ∈ s'.corrections) :
    (∃ k₀ ∈ s.corrections, k.originalTransferId = k₀.originalTransferId ∧
        k.tenantId = k₀.tenantId) ∨
      ∃ o, s.transfers.find? k.originalTransferId = some o ∧ o.tenantId = k.tenantId := by
  by_cases hc : c.Corrects
  case neg => exact .inl ⟨k, h.untouched.corrections hc ▸ hk, rfl, rfl⟩
  -- The calls that replace a correction keep its original and its tenant.
  have hreplace : ∀ {k' k₀ : Correction}, k₀ ∈ s.corrections →
      k'.originalTransferId = k₀.originalTransferId → k'.tenantId = k₀.tenantId →
      s'.corrections = s.corrections.replace k' → (∃ k₀ ∈ s.corrections,
        k.originalTransferId = k₀.originalTransferId ∧ k.tenantId = k₀.tenantId) := by
    intro k' k₀ hmem ho ht heq
    rw [heq] at hk
    rcases Table.mem_replace hk with rfl | ⟨hold, -⟩
    · exact ⟨k₀, hmem, ho, ht⟩
    · exact ⟨k, hold, rfl, rfl⟩
  cases h with
  | none => exact .inl ⟨k, hk, rfl, rfl⟩
  | requestedCorrection original_find original_tenant corrections frame =>
    rcases (Table.mem_insert? corrections).mp hk with rfl | hold
    · exact .inr ⟨_, original_find, original_tenant⟩
    · exact .inl ⟨k, hold, rfl, rfl⟩
  | decidedCorrection find corrections frame =>
    refine .inl (hreplace (Table.mem_of_find? find) ?_ ?_ corrections)
    · unfold Correction.decide
      split_ifs <;> rfl
    · unfold Correction.decide
      split_ifs <;> rfl
  | lapsedCorrection h =>
    exact .inl (hreplace (Table.mem_of_find? h.find) (by rfl) (by rfl) h.corrections)
  | postedCorrection h =>
    exact .inl (hreplace (Table.mem_of_find? h.correction_find) (by rfl) (by rfl) h.corrections)
  | _ => exact False.elim hc

end Kept

/-! ## Every journal keeps its shape -/

/-- What ties journals to the rows that they are checked against. -/
structure Linked (s : Db) : Prop where
  postings : ∀ p ∈ s.postings, ∃ j, s.journals.find? p.journalTransactionId = some j
  corrections : ∀ k ∈ s.corrections, ∃ o, s.transfers.find? k.originalTransferId = some o ∧
    o.tenantId = k.tenantId
  compensating : Compensating s.fundingEvents
  shaped : ∀ j ∈ s.journals, j.Shaped s

section Shape

variable {d : Digest} {c : Call} {s s' : Db}

/-- A shape is read off transfers, funding events and postings. -/
theorem Journal.Shaped.congr {j : Journal} (h : j.Shaped s) (ht : s'.transfers = s.transfers)
    (hf : s'.fundingEvents = s.fundingEvents) (hp : s'.postings = s.postings) : j.Shaped s' := by
  have hof : ∀ i, s'.postingsOf i = s.postingsOf i := fun i => by
    unfold Db.postingsOf
    rw [hp]
  unfold Journal.Shaped at h ⊢
  split at h
  · obtain ⟨x, hx⟩ := h
    refine ⟨x, ht ▸ hx.find, hx.tenant, hx.status, hx.linked, hx.transferId, hx.fundingEventId,
      ht ▸ hx.compensation, ?_⟩
    obtain ⟨i, i', now, hrows⟩ := hx.sides
    exact ⟨i, i', now, (hof _).trans hrows⟩
  · obtain ⟨e, he⟩ := h
    refine ⟨e, hf ▸ he.find, he.tenant, he.status, he.linked, he.fundingEventId, he.transferId,
      hf ▸ he.compensation, ?_⟩
    obtain ⟨i, i', now, hrows⟩ := he.sides
    exact ⟨i, i', now, (hof _).trans hrows⟩

/-- A journal that was there keeps its postings. -/
theorem Change.postingsOf_kept (h : Change d s s') {j : Journal} (hj : j ∈ s.journals) :
    s'.postingsOf j.id = s.postingsOf j.id := by
  rcases h.journal with ⟨-, hp⟩ | ⟨j', _, _, _, _, hw⟩
  · unfold Db.postingsOf
    rw [hp]
  · apply hw.postingsOf
    intro heq
    exact Table.find?_eq_none.mp (Table.insert?_eq_some.mp hw.insert).1 j hj heq

/-- A journal that was there keeps its shape, whatever happens to its command. -/
theorem Effect.shaped_kept (h : Effect d c s s') {j : Journal} (hj : j ∈ s.journals)
    (hshape : j.Shaped s) : j.Shaped s' := by
  have hrows := h.change.postingsOf_kept hj
  unfold Journal.Shaped at hshape ⊢
  split at hshape
  · obtain ⟨x, hx⟩ := hshape
    refine ⟨x, h.change.transfer_kept hx.find, hx.tenant, hx.status, hx.linked, hx.transferId,
      hx.fundingEventId, fun original hof => ?_, ?_⟩
    · obtain ⟨o, ho, hrest⟩ := hx.compensation original hof
      exact ⟨o, h.change.transfer_kept ho, hrest⟩
    · obtain ⟨i, i', now, hsides⟩ := hx.sides
      exact ⟨i, i', now, hrows.trans hsides⟩
  · obtain ⟨e, he⟩ := hshape
    obtain ⟨e', hfind, hadv⟩ := h.fundingChange.kept he.find
    -- The event is still posted under the journal, or it has been compensated since.
    have hstatus : (e'.status = .posted ∨ e'.status = .compensated) ∧
        e'.journalTransactionId = e.journalTransactionId := by
      rcases he.status with hs | hs
      · exact hadv.posted hs
      · rw [hadv.compensated hs]
        exact ⟨.inr hs, rfl⟩
    refine ⟨e', hfind, hadv.tenant.trans he.tenant, hstatus.1, hstatus.2.trans he.linked,
      he.fundingEventId, he.transferId, fun original hof => ?_, ?_⟩
    · obtain ⟨o, ho, hs, hmark, hterms⟩ := he.compensation original (hadv.original ▸ hof)
      obtain ⟨o', ho', hadv'⟩ := h.fundingChange.kept ho
      obtain rfl := hadv'.compensated hs
      exact ⟨o', ho', hs, hmark, hadv.tenant.trans hterms.tenant,
        hadv.destination.trans hterms.destination, hadv.system.trans hterms.system,
        hadv.amount.trans hterms.amount, hadv.currency.trans hterms.currency⟩
    · obtain ⟨i, i', now, hsides⟩ := he.sides
      refine ⟨i, i', now, ?_⟩
      unfold FundingEvent.debitAccountId FundingEvent.creditAccountId at hsides ⊢
      rw [hadv.original, hadv.system, hadv.destination, hadv.amount, hadv.currency]
      exact hrows.trans hsides

/-- No posting names a journal that is not there yet. -/
theorem Linked.fresh (hs : Linked s) {j : Journal} {t : Table Journal.id}
    (h : s.journals.insert? j = some t) : ∀ p ∈ s.postings, p.journalTransactionId ≠ j.id := by
  intro p hp heq
  obtain ⟨x, hx⟩ := hs.postings p hp
  rw [heq, (Table.insert?_eq_some.mp h).1] at hx
  cases hx

/-- The journal of a posted transfer has its shape. -/
theorem PostedTransfer.shaped {p : TransferRequest} {ids : TransferIds} {body : Json}
    (h : PostedTransfer p ids s s' body)
    (hfresh : ∀ q ∈ s.postings, q.journalTransactionId ≠ ids.journal) :
    (transferJournal p.tenantId p.now ids.journal ids.transfer).Shaped s' := by
  obtain ⟨hid, htenant, -, hdebit, hcredit, hamount, hcurrency, -, hof⟩ :=
    pendingTransfer?_eq_some h.row_eq
  have hw : JournalWritten s s' (transferJournal p.tenantId p.now ids.journal ids.transfer)
    p.debitAccountId p.creditAccountId p.amount p.currency := ⟨h.journals, _, _, _, h.postings⟩
  refine ⟨h.row.post ids.journal p.now, ?_, htenant, rfl, rfl, rfl, rfl, fun original hsome => ?_,
    ?_⟩
  · exact Table.find?_insert?_self h.transfers hid
  · cases hof.symm.trans hsome
  · change s'.PostedAs _ h.row.debitAccountId h.row.creditAccountId h.row.amount h.row.currency
    rw [hdebit, hcredit, hamount, hcurrency]
    exact hw.postedAs hfresh

/-- The journal of a posted correction has its shape. -/
theorem PostedCorrection.shaped {p : CorrectionPost} {ids : CorrectionPostIds}
    (h : PostedCorrection p ids s s') (hs : Linked s)
    (hfresh : ∀ q ∈ s.postings, q.journalTransactionId ≠ ids.journal) :
    (transferJournal p.tenantId p.now ids.journal ids.compensation).Shaped s' := by
  have hw : JournalWritten s s' (transferJournal p.tenantId p.now ids.journal ids.compensation)
    h.original.creditAccountId h.original.debitAccountId h.original.amount h.original.currency :=
    ⟨h.journals, _, _, _, h.postings⟩
  refine ⟨compensationTransfer p ids h.correction h.original, ?_, rfl, rfl, rfl, rfl, rfl,
    fun original hof => ?_, hw.postedAs hfresh⟩
  · exact Table.find?_insert?_self h.transfers rfl
  · -- The original is the transfer that the correction names, a transfer of the same tenant.
    cases hof
    obtain ⟨o, ho, htenant⟩ := hs.corrections _ (Table.mem_of_find? h.correction_find)
    obtain rfl := Option.some.inj (h.original_find.symm.trans ho)
    have hkey : h.original.id = h.correction.originalTransferId :=
      Table.key_of_find? h.original_find
    refine ⟨h.original, ?_, htenant.trans h.correction_tenant, h.original_status, rfl, rfl, rfl, rfl⟩
    rw [hkey]
    exact Table.find?_insert?_of_some h.transfers h.original_find

/-- The journal of a posted funding has its shape. -/
theorem PostedFunding.shaped {p : FundingPost} {ids : FundingPostIds} (h : PostedFunding p ids s s')
    (hs : Linked s) (hfresh : ∀ q ∈ s.postings, q.journalTransactionId ≠ ids.journal) :
    (fundingJournal p ids.journal).Shaped s' := by
  have hw : JournalWritten s s' (fundingJournal p ids.journal) h.event.debitAccountId
    h.event.creditAccountId h.event.amount h.event.currency := ⟨h.journals, _, _, _, h.postings⟩
  have hkey : h.event.id = p.fundingEventId := Table.key_of_find? h.event_find
  have hposted : (s.fundingEvents.replace (h.event.post ids.journal p.idempotencyKey p.now)).find?
      p.fundingEventId = some (h.event.post ids.journal p.idempotencyKey p.now) :=
    Table.find?_replace_self h.event_find hkey
  rcases hof : h.event.compensationOfEventId with _ | original
  · refine ⟨h.event.post ids.journal p.idempotencyKey p.now, ?_, h.event_tenant, .inl rfl, rfl, rfl,
      rfl, fun original hsome => ?_, hw.postedAs hfresh⟩
    · rw [(h.closed.counted hof).2]
      exact hposted
    · cases hof.symm.trans hsome
  · obtain ⟨o, ho, -, hstatus, -, heq⟩ := h.closed.marked original hof
    obtain ⟨o', ho', hnone, hterms⟩ := hs.compensating _ _ h.event_find original hof
    -- An event is not its own original, since an original compensates no event.
    have hne : original ≠ p.fundingEventId := by
      rintro rfl
      obtain rfl := Option.some.inj (h.event_find.symm.trans ho')
      cases hof.symm.trans hnone
    have hne' : original ≠ (h.event.post ids.journal p.idempotencyKey p.now).id := by
      change original ≠ h.event.id
      rw [hkey]
      exact hne
    rw [Table.find?_replace_ne hne'] at ho
    obtain rfl := Option.some.inj (ho.symm.trans ho')
    have hkey' : o.id = original := Table.key_of_find? ho'
    refine ⟨h.event.post ids.journal p.idempotencyKey p.now, ?_, h.event_tenant, .inl rfl, rfl, rfl,
      rfl, fun i hi => ?_, hw.postedAs hfresh⟩
    · rw [heq, Table.find?_replace_ne]
      · exact hposted
      · change p.fundingEventId ≠ o.id
        rw [hkey']
        exact hne.symm
    · obtain rfl : original = i := Option.some.inj (hof.symm.trans hi)
      refine ⟨o.compensate p.fundingEventId p.now, ?_, rfl, rfl, hterms.tenant, hterms.destination,
        hterms.system, hterms.amount, hterms.currency⟩
      rw [heq]
      exact Table.find?_replace_self ((Table.find?_replace_ne hne').trans ho) hkey'

/-- A journal that a call wrote has its shape. -/
theorem Change.shaped_new (h : Change d s s') (hs : Linked s) {j : Journal} (hj : j ∈ s'.journals) :
    j ∈ s.journals ∨ j.Shaped s' := by
  have hkeep : s'.journals = s.journals → j ∈ s.journals := fun heq => heq ▸ hj
  cases h with
  | quiet frame => exact .inl (hkeep (by rw [frame]))
  | status => exact .inl (hkeep rfl)
  | claimed _ frame => exact .inl (hkeep (by rw [frame]))
  | cleared h frame => exact .inl (hkeep (by rw [frame, h.frame]))
  | rejected h => exact .inl (hkeep (by rw [h.frame]; rfl))
  | posted h =>
    rcases (Table.mem_insert? h.journals).mp hj with rfl | hold
    -- The id of the new journal was free, so that no other posting refers to it.
    · exact .inr (h.shaped (hs.fresh h.journals))
    · exact .inl hold
  | corrected h =>
    rcases (Table.mem_insert? h.journals).mp hj with rfl | hold
    · exact .inr (h.shaped hs (hs.fresh h.journals))
    · exact .inl hold
  | funded h =>
    rcases (Table.mem_insert? h.journals).mp hj with rfl | hold
    · exact .inr (h.shaped hs (hs.fresh h.journals))
    · exact .inl hold
  | reserved h => exact .inl (hkeep (by rw [h.frame]))
  | returned _ h => exact .inl (hkeep (by rw [h.frame]))
  | captured h =>
    -- The shape of the journal depends on the three tables that the last step keeps.
    have heq : s'.journals = h.mid.journals := (congrArg Db.journals h.frame :)
    rcases (Table.mem_insert? h.posted.journals).mp (heq ▸ hj) with rfl | hold
    · exact .inr ((h.posted.shaped (hs.fresh h.posted.journals)).congr
        (congrArg Db.transfers h.frame :) (congrArg Db.fundingEvents h.frame :)
        (congrArg Db.postings h.frame :))
    · exact .inl hold
  | imported h => exact .inl (hkeep (by rw [h.frame]))

/-- A returning call keeps the journals linked to the rows that they are checked against. -/
theorem Effect.linked (h : Effect d c s s') (hs : Linked s) : Linked s' where
  postings p hp := by
    rcases h.change.journal with ⟨hj, hpost⟩ | ⟨j, _, _, _, _, hw⟩
    · rw [hj]
      exact hs.postings p (hpost ▸ hp)
    · obtain ⟨_, _, _, hpair⟩ := hw.pair
      -- Both new postings are of the new journal.
      rcases hpair.mem hp with rfl | rfl | hold
      · exact ⟨j, Table.find?_insert?_self hw.insert rfl⟩
      · exact ⟨j, Table.find?_insert?_self hw.insert rfl⟩
      · obtain ⟨x, hx⟩ := hs.postings p hold
        exact ⟨x, Table.find?_insert?_of_some hw.insert hx⟩
  corrections k hk := by
    rcases h.correction hk with ⟨k₀, hk₀, horiginal, htenant⟩ | ⟨o, ho, htenant⟩
    · obtain ⟨o, ho, ht⟩ := hs.corrections k₀ hk₀
      exact ⟨o, horiginal ▸ h.change.transfer_kept ho, ht.trans htenant.symm⟩
    · exact ⟨o, h.change.transfer_kept ho, htenant⟩
  compensating := h.fundingChange.compensating hs.compensating
  shaped j hj := by
    rcases h.change.shaped_new hs hj with hold | hshaped
    · exact h.shaped_kept hold (hs.shaped j hold)
    · exact hshaped

end Shape

/-- At first there are no journals to link. -/
theorem Db.Provisioned.linked {s : Db} (h : s.Provisioned) : Linked s where
  postings p hp := by
    rw [Table.mem_def, h.postings] at hp
    cases hp
  corrections k hk := by
    rw [Table.mem_def, h.corrections] at hk
    cases hk
  compensating i e he := by
    have hmem := Table.mem_of_find? he
    rw [Table.mem_def, h.fundingEvents] at hmem
    cases hmem
  shaped j hj := by
    rw [Table.mem_def, h.journals] at hj
    cases hj

/-- Every history keeps the journals linked. -/
theorem run_linked (d : Digest) (cs : List Call) {s : Db} (hs : Linked s) :
    Linked (run (exec d) cs s) :=
  run_invariant (fun _ _ _ _ h hl => (exec_effect h).linked hl) cs hs

/-! ## Conservation -/

/-- The postings of a tenant and currency in one direction. -/
def Db.classPosted (s : Db) (direction : Direction) (tenant : Uuid) (currency : String) : ℤ :=
  s.postings.total fun p =>
    if p.tenantId = tenant ∧ p.currency = currency then
      (if p.direction = direction then (p.amount : ℤ) else 0) else 0

/-- The ledger amounts of a tenant and currency. -/
def Db.ledgerTotal (s : Db) (tenant : Uuid) (currency : String) : ℤ :=
  s.accounts.total fun a => if a.tenantId = tenant ∧ a.currency = currency then
    ((s.balances.find? a.id).map fun b => (b.ledger : ℤ)).getD 0 else 0

/-- The opening balances of a tenant and currency. -/
def Db.openingTotal (s : Db) (tenant : Uuid) (currency : String) : ℤ :=
  s.accounts.total fun a => if a.tenantId = tenant ∧ a.currency = currency then
    ((s.openings.find? a.id).map fun o => (o.openingLedger : ℤ)).getD 0 else 0

/-- Every posting is to an account of its tenant and currency, and within a tenant and currency as
much is credited as debited. -/
structure Conserving (s : Db) : Prop where
  hasAccount : ∀ p ∈ s.postings, p.HasAccount s
  even : ∀ tenant currency,
    s.classPosted .credit tenant currency = s.classPosted .debit tenant currency

/-- The two postings of a journal have one tenant and one currency. -/
theorem JournalWritten.classPosted {s s' : Db} {j : Journal} {debit credit : Uuid} {amount : Bigint}
    {currency : String} (h : JournalWritten s s' j debit credit amount currency)
    (direction : Direction) (tenant : Uuid) (cur : String) :
    s'.classPosted direction tenant cur = s.classPosted direction tenant cur +
      if j.tenantId = tenant ∧ currency = cur then (amount : ℤ) else 0 := by
  obtain ⟨_, _, _, hpair⟩ := h.pair
  obtain ⟨t₁, h₁, h₂⟩ := hpair.rows
  unfold Db.classPosted
  rw [Table.total_insert? h₂, Table.total_insert? h₁]
  cases direction <;> simp [transferPosting] <;> ring

/-- A returning call conserves the totals of every tenant and currency. -/
theorem Change.conserving {d : Digest} {s s' : Db} (h : Change d s s') (hs : Conserving s) :
    Conserving s' where
  hasAccount p hp := by
    have hfound : p.HasAccount s := (h.posting hp).elim (hs.hasAccount p) id
    obtain ⟨a, ha, htenant, hcurrency⟩ := hfound
    obtain ⟨a', ha', hsame⟩ := h.account_kept ha
    exact ⟨a', ha', hsame.tenantId.trans htenant, hsame.currency.trans hcurrency⟩
  even tenant currency := by
    rcases h.journal with ⟨-, hp⟩ | ⟨j, _, _, _, _, hw⟩
    · unfold Db.classPosted
      rw [hp]
      exact hs.even tenant currency
    · rw [hw.classPosted, hw.classPosted, hs.even]

/-- What is posted to the accounts of a tenant and currency is what the postings of that tenant and
currency add up to. -/
theorem Conserving.total_posted {s : Db} (h : Conserving s) (direction : Direction) (tenant : Uuid)
    (currency : String) :
    s.accounts.total (fun a => if a.tenantId = tenant ∧ a.currency = currency then
      s.posted direction a.id else 0) = s.classPosted direction tenant currency := by
  have hfiber := Table.total_fiber s.accounts s.postings Posting.accountId
    (fun a => decide (a.tenantId = tenant ∧ a.currency = currency))
    (fun p => if p.direction = direction then (p.amount : ℤ) else 0)
  simp only [decide_eq_true_eq] at hfiber
  unfold Db.posted Db.classPosted
  simp only [ite_and] at hfiber ⊢
  refine hfiber.trans (Table.total_congr fun p hp => ?_)
  obtain ⟨a, ha, htenant, hcurrency⟩ := h.hasAccount p hp
  simp only [ha, Option.any_some, htenant, hcurrency, decide_eq_true_eq, ite_and]

/-- What all accounts hold together is what was opened with. -/
theorem Booked.ledgerTotal {s : Db} (hb : Booked s) (hc : Conserving s) (tenant : Uuid)
    (currency : String) : s.ledgerTotal tenant currency = s.openingTotal tenant currency := by
  -- The equation of each account, added up over the class.
  have hsum : s.accounts.total (fun a =>
      (if a.tenantId = tenant ∧ a.currency = currency then
        ((s.balances.find? a.id).map fun b => (b.ledger : ℤ)).getD 0 else 0) +
      (if a.tenantId = tenant ∧ a.currency = currency then s.posted .debit a.id else 0)) =
    s.accounts.total (fun a =>
      (if a.tenantId = tenant ∧ a.currency = currency then
        ((s.openings.find? a.id).map fun o => (o.openingLedger : ℤ)).getD 0 else 0) +
      (if a.tenantId = tenant ∧ a.currency = currency then s.posted .credit a.id else 0)) := by
    refine Table.total_congr fun a ha => ?_
    obtain ⟨p, hp, hbalanced⟩ := hb.balanced a.id a (Table.find?_eq_some.mpr ⟨ha, rfl⟩)
    obtain ⟨b, o, hfind, hopen, rfl⟩ := Db.position?_eq_some.mp hp
    have hledger := hbalanced.ledger
    simp only at hledger
    rw [hfind, hopen]
    split_ifs
    · simp only [Option.map_some, Option.getD_some, hledger]
      ring
    · rfl
  rw [Table.total_add, Table.total_add, hc.total_posted, hc.total_posted, hc.even] at hsum
  exact add_right_cancel hsum

/-- At first the totals are those that were opened with. -/
theorem Db.Provisioned.conserving {s : Db} (h : s.Provisioned) : Conserving s where
  hasAccount p hp := by
    rw [Table.mem_def, h.postings] at hp
    cases hp
  even tenant currency := by
    simp [Db.classPosted, Table.total, h.postings]

/-- Whatever calls came before, when a call returns the journals that were stored are still there,
the deferred validation accepts every stored journal, old or new, and the ledger amounts of every
tenant and currency add up to the opening balances. -/
theorem journals_accepted (d : Digest) (s : Db) (hs : s.Provisioned) (cs : List Call) (c : Call)
    (s' : Db) (hc : exec d c (run (exec d) cs s) = .ok ((), s')) :
    (∀ j ∈ (run (exec d) cs s).journals, j ∈ s'.journals) ∧
      (∀ j ∈ s'.journals, validateLedgerSemanticShape j.id s' = .ok ((), s')) ∧
      ∀ tenant currency, s'.ledgerTotal tenant currency = s'.openingTotal tenant currency := by
  have heffect := exec_effect hc
  have hlinked := heffect.linked (run_linked d cs hs.linked)
  have hbooked := heffect.change.booked (run_booked d cs hs.booked)
  have hconserving : Conserving (run (exec d) cs s) :=
    run_invariant (fun _ _ _ _ h hl => (exec_change h).conserving hl) cs hs.conserving
  refine ⟨fun j hj => ?_, fun j hj => ?_, ?_⟩
  · rcases heffect.change.journal with ⟨heq, -⟩ | ⟨_, _, _, _, _, hw⟩
    · exact heq ▸ hj
    · exact (Table.mem_insert? hw.insert).mpr (.inr hj)
  · exact validate_of_shaped (Table.find?_eq_some.mpr ⟨hj, rfl⟩) (hlinked.shaped j hj)
  · exact hbooked.ledgerTotal (heffect.change.conserving hconserving)

/-- The journal of a transfer, which returns on the sample database. -/
theorem journals_accepted_sample : Sample.db.Provisioned ∧
    ∃ s', exec Sample.digest Sample.transfer (run (exec Sample.digest) [] Sample.db) = .ok ((), s') ∧
      s'.journals.rows.length = 1 ∧
      (∀ j ∈ (run (exec Sample.digest) [] Sample.db).journals, j ∈ s'.journals) ∧
      (∀ j ∈ s'.journals, validateLedgerSemanticShape j.id s' = .ok ((), s')) ∧
      ∀ tenant currency, s'.ledgerTotal tenant currency = s'.openingTotal tenant currency := by
  have hret : (match exec Sample.digest Sample.transfer Sample.db with
    | .ok (_, s') => decide (s'.journals.rows.length = 1)
    | .error _ => false) = true := by decide +kernel
  refine ⟨Sample.provisioned, ?_⟩
  rcases hexec : exec Sample.digest Sample.transfer Sample.db with e | ⟨u, s'⟩
  · rw [hexec] at hret
    cases hret
  · rw [hexec] at hret
    exact ⟨s', hexec, of_decide_eq_true hret,
      journals_accepted Sample.digest Sample.db Sample.provisioned [] Sample.transfer s' hexec⟩

end LedgerSync
